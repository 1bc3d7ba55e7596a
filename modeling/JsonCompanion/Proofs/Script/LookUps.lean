import JsonCompanion.Proofs.Script.Data

/-!
# Keys that code looks up

* `LooksUp` says that a text looks a key up in the object that is decoded: the look-up is among its
  tokens.
* `Spells.unique`: a text has one list of tokens, so that `LooksUp` can be told from any of them.
* `OnlyLooksUp` says of tokens that nothing else is looked up.
* `Encloses` says of code that it has some other code in it, and looks nothing up besides.  It is
  kept by what `IsLead` in front of the code and by what `IsTail` behind it.
-/

namespace JsonCompanion.Script

/-! ### Look-ups among tokens -/

/-- The tokens of the look-up of a key. -/
def lookUp (key : Text) : List Token := [.ofName "json", .mark "[", .string key false, .mark "]"]

/-- A text looks a key up. -/
def LooksUp (t key : Text) : Prop :=
  ∃ tokens, Token.finish ∉ tokens ∧ Spells t (tokens ++ [.finish]) ∧ lookUp key <:+: tokens

/-- No name in front of the tokens would be looked into. -/
def isApart : List Token → Bool
  | [] => true
  | token :: _ => !token.isMark "["

/-- Tokens in which nothing but the key is looked up. -/
inductive OnlyLooksUp (key : Text) : List Token → Prop
  | nil : OnlyLooksUp key []
  | cons {token : Token} {tokens : List Token} (htoken : token ≠ .finish)
      (hname : token = .ofName "json" → isApart tokens)
    (h : OnlyLooksUp key tokens) : OnlyLooksUp key (token :: tokens)
  | lookUp {tokens : List Token} (h : OnlyLooksUp key tokens) : OnlyLooksUp key (lookUp key ++ tokens)

variable {key other t rest : Text} {tokens more inner : List Token}

/-- A text that begins with a token begins with no other one. -/
private theorem Spells.cons_unique {first second : Token} (hfirst : Spells t (first :: tokens))
    (hsecond : Spells t (second :: more)) :
    first = second ∧ ∃ rest, Spells rest tokens ∧ Spells rest more := by
  obtain ⟨rest, hrest, hat⟩ := hfirst
  obtain ⟨rest', hrest', hat'⟩ := hsecond
  obtain ⟨_, _, _, -, heq⟩ := hat Context.module.operand 0 0 [] [] (Token.fitsIn_operand _ _)
  obtain ⟨_, _, _, -, heq'⟩ := hat' Context.module.operand 0 0 [] [] (Token.fitsIn_operand _ _)
  have hcursor := Option.some.inj (heq.symm.trans heq')
  injection hcursor with htoken _ _ _ _ hrests
  exact ⟨htoken, rest, hrest, hrests ▸ hrest'⟩

/-- A text has one list of tokens. -/
theorem Spells.unique (hfirst : Spells t (tokens ++ [.finish])) (hsecond : Spells t (more ++ [.finish]))
    (htokens : .finish ∉ tokens) (hmore : .finish ∉ more) : tokens = more := by
  induction tokens generalizing t more with
  | nil =>
    cases more with
    | nil => rfl
    | cons second more =>
      obtain ⟨heq, -⟩ := hfirst.cons_unique hsecond
      exact absurd (heq ▸ List.mem_cons_self) hmore
  | cons first tokens ih =>
    cases more with
    | nil =>
      obtain ⟨heq, -⟩ := hfirst.cons_unique hsecond
      exact absurd (heq ▸ List.mem_cons_self) htokens
    | cons second more =>
      obtain ⟨rfl, rest, hrest, hrest'⟩ := hfirst.cons_unique hsecond
      rw [ih hrest hrest' (fun h => htokens (List.mem_cons_of_mem _ h)) fun h =>
        hmore (List.mem_cons_of_mem _ h)]

theorem looksUp_iff (h : Spells t (tokens ++ [.finish])) (hfinish : .finish ∉ tokens) :
    LooksUp t key ↔ lookUp key <:+: tokens := by
  constructor
  · rintro ⟨more, hmore, hspells, hlookUp⟩
    rwa [h.unique hspells hfinish hmore]
  · exact fun hlookUp => ⟨tokens, hfinish, h, hlookUp⟩

namespace OnlyLooksUp

theorem finish_not_mem (h : OnlyLooksUp key tokens) : .finish ∉ tokens := by
  induction h with
  | nil => exact List.not_mem_nil
  | cons htoken _ _ ih => exact fun hmem => (List.mem_cons.1 hmem).elim (fun heq => htoken heq.symm) ih
  | lookUp _ ih =>
    intro hmem
    simp [Script.lookUp, Token.ofName] at hmem
    exact ih hmem

/-- What is looked up is the key. -/
theorem eq_key (h : OnlyLooksUp key tokens) (hother : Script.lookUp other <:+: tokens) :
    other = key := by
  induction h with
  | nil => cases List.infix_nil.1 hother
  | @cons token tokens htoken hname h ih =>
    rcases List.infix_cons_iff.1 hother with hprefix | hinfix
    · obtain ⟨more, hmore⟩ := hprefix
      injection hmore with heq hmore
      rw [← hmore] at hname
      cases hname heq.symm
    · exact ih hinfix
  | @lookUp tokens h ih =>
    rcases List.infix_cons_iff.1 hother with hprefix | hinfix
    · obtain ⟨more, hmore⟩ := hprefix
      have heq : other = key ∧ more = tokens := by simpa [Script.lookUp] using hmore
      exact heq.1
    · -- no look-up begins inside of another one
      have hbegins {token : Token} {more : List Token} (hne : token ≠ .ofName "json") :
          Script.lookUp other <:+: token :: more → Script.lookUp other <:+: more := fun hinfix =>
        (List.infix_cons_iff.1 hinfix).resolve_left fun ⟨_, heq⟩ => hne (List.cons.inj heq).1.symm
      exact ih (hbegins (by simp [Token.ofName])
        (hbegins (by simp [Token.ofName]) (hbegins (by simp [Token.ofName]) hinfix)))

theorem append (h : OnlyLooksUp key tokens) (hmore : OnlyLooksUp key more) (hapart : isApart more) :
    OnlyLooksUp key (tokens ++ more) := by
  induction h with
  | nil => exact hmore
  | @cons token tokens htoken hname _ ih =>
    refine .cons htoken (fun heq => ?_) ih
    cases tokens with
    | nil => exact hapart
    | cons => exact hname heq
  | lookUp _ ih =>
    rw [List.append_assoc]
    exact .lookUp ih

theorem mark (h : OnlyLooksUp key tokens) (mark : Text) : OnlyLooksUp key (.mark mark :: tokens) :=
  .cons (by simp) (by simp [Token.ofName]) h

theorem word (h : OnlyLooksUp key tokens) (name : Text) (hapart : isApart tokens) :
    OnlyLooksUp key (.ofName name :: tokens) :=
  .cons (by simp [Token.ofName]) (fun _ => hapart) h

end OnlyLooksUp

/-! ### Code around code -/

/-- A text that may stand in front of other code. -/
def IsLead (t : Text) : Prop :=
  ∃ tokens, (∀ {rest : Text} {following : List Token}, Spells rest following →
    Spells (t ++ rest) (tokens ++ following)) ∧
    ∀ {key : Text} {following : List Token}, OnlyLooksUp key following →
      OnlyLooksUp key (tokens ++ following)

/-- In front of what ends a name, the text consists of the tokens. -/
def Consists (t : Text) (tokens : List Token) : Prop :=
  ∀ {rest : Text} {following : List Token}, Spells rest following → rest.endsName →
    Spells (t ++ rest) (tokens ++ following)

/-- A text that may stand behind other code. -/
def IsTail (t : Text) : Prop :=
  (∀ rest : Text, (t ++ rest).endsName) ∧
    ∃ tokens, Consists t tokens ∧ isApart tokens ∧ ∀ key, OnlyLooksUp key tokens

/-- Code that has some other code in it, and looks nothing up besides. -/
def Encloses (inner : List Token) (t : Text) : Prop :=
  ∃ front back, Consists t (front ++ (inner ++ back)) ∧
    ∀ key, OnlyLooksUp key inner → OnlyLooksUp key (front ++ (inner ++ back))

/-- Data in code, in which nothing is looked up. -/
def IsData (t : Text) : Prop := ∃ tokens, Writes t tokens ∧ ∀ key, OnlyLooksUp key tokens

/-! ### Leads -/

theorem IsLead.append (h : IsLead t) (hrest : IsLead rest) : IsLead (t ++ rest) := by
  obtain ⟨tokens, hspells, honly⟩ := h
  obtain ⟨more, hspells', honly'⟩ := hrest
  refine ⟨tokens ++ more, fun h => ?_, fun h => ?_⟩
  · rw [List.append_assoc, List.append_assoc]
    exact hspells (hspells' h)
  · rw [List.append_assoc]
    exact honly (honly' h)

theorem isLead_space : IsLead " " := ⟨[], fun h => h.space, fun h => h⟩

theorem isLead_mark (mark : Text) (hmark : mark ∈ Spells.freeMarks) : IsLead mark :=
  ⟨[.mark mark], fun h => h.mark mark hmark, fun h => h.mark mark⟩

/-! ### Names -/

/-- Marks behind names in generated code. -/
private def nameMarks : List Text := (["(", ")", "]", ","] : List String).map Text.ofString

private theorem nameMarks_sound :
    ∀ mark ∈ nameMarks, mark ∈ Spells.freeMarks ∧ mark ≠ [] ∧ mark.endsName ∧
    (Token.mark mark).isMark "[" = false := by decide

private theorem endsName_append {t : Text} (hne : t ≠ []) (h : t.endsName) (rest : Text) :
    (t ++ rest).endsName := by
  cases t with
  | nil => exact absurd rfl hne
  | cons u us => exact h

private theorem point_eq : Text.ofString "." = [CodeUnit.ofChar '.'] := rfl

/-- The members of a chain. -/
private theorem spells_labels {labels : List Text} (hlabels : labels.all Text.isPlainIdentifier)
    (h : Spells rest tokens) (hends : rest.endsName) :
    Spells (labels.flatMap (CodeUnit.ofChar '.' :: ·) ++ rest)
        (labels.flatMap (fun label => [.mark ".", .ofName label]) ++ tokens) ∧
      Text.endsName (labels.flatMap (CodeUnit.ofChar '.' :: ·) ++ rest) := by
  induction labels with
  | nil => exact ⟨h, hends⟩
  | cons label labels ih =>
    obtain ⟨hlabel, hlabels⟩ := Bool.and_eq_true_iff.1 hlabels
    obtain ⟨hspells, hends⟩ := ih hlabels
    have hfirst := hspells.label label (Text.isIdentifier_of_plain hlabel) hends
    exact ⟨by simpa [point_eq] using hfirst, rfl⟩

private theorem onlyLooksUp_labels (labels : List Text) (h : OnlyLooksUp key tokens)
    (hapart : isApart tokens) :
    OnlyLooksUp key (labels.flatMap (fun label => [Token.mark ".", .ofName label]) ++ tokens) ∧
      isApart (labels.flatMap (fun label => [Token.mark ".", .ofName label]) ++ tokens) := by
  induction labels with
  | nil => exact ⟨h, hapart⟩
  | cons label labels ih => exact ⟨(ih.1.word label ih.2).mark ".", rfl⟩

/-- A name with points in front of a mark. -/
theorem isLead_dotted {name : Text} (h : name.isDotted) (mark : Text) (hmark : mark ∈ nameMarks) :
    IsLead (name ++ mark) := by
  obtain ⟨hfree, hne, hends, hbracket⟩ := nameMarks_sound mark hmark
  obtain ⟨first, labels, hsplit, rfl⟩ := Text.exists_splitOn '.' name
  rw [Text.isDotted, hsplit] at h
  obtain ⟨hfirst, hlabels⟩ := Bool.and_eq_true_iff.1 h
  have hapart (following : List Token) : isApart (.mark mark :: following) := by
    rw [isApart, hbracket]
    rfl
  refine ⟨.ofName first ::
    (labels.flatMap (fun label => [.mark ".", .ofName label]) ++ [.mark mark]), fun hrest => ?_,
    fun {key following} hfollowing => ?_⟩
  · obtain ⟨hspells, hends⟩ :=
      spells_labels hlabels (hrest.mark mark hfree) (endsName_append hne hends _)
    simpa using hspells.word first (Text.isIdentifier_of_plain hfirst) hends
  · obtain ⟨honly, hapart⟩ := onlyLooksUp_labels labels (hfollowing.mark mark) (hapart following)
    simpa using honly.word first hapart

/-- A call of what a name with points stands for. -/
theorem isLead_call {name : Text} (h : name.isDotted) : IsLead (name ++ "(") :=
  isLead_dotted h "(" (by decide)

/-- A construction of what a name with points stands for. -/
theorem isLead_new {name : Text} (h : name.isDotted) : IsLead ("new " ++ (name ++ "(")) := by
  obtain ⟨tokens, hspells, honly⟩ := isLead_call h
  have hnew : Text.ofString "new " = Text.ofString "new" ++ [0x20] := rfl
  refine ⟨.ofName "new" :: tokens, fun hrest => ?_, fun hfollowing => ?_⟩
  · have hword := (hspells hrest).space.word "new" rfl rfl
    simpa only [hnew, List.append_assoc, List.cons_append, List.nil_append] using hword
  · -- a bracket may follow, since `new` is not what keys are looked up in
    have hname : Token.ofName "new" ≠ .ofName "json" := by
      rw [Token.ofName, Token.ofName, ne_eq, Token.word.injEq, Word.mk.injEq]
      exact fun heq => absurd heq.1 (by decide)
    exact .cons (by simp [Token.ofName]) (fun heq => absurd heq hname) (honly hfollowing)

/-! ### Tails -/

private theorem blank_eq : Text.ofString " \x7d" = 0x20 :: Text.ofString "\x7d" ∧
    Text.ofString ", " = Text.ofString "," ++ [0x20] := ⟨rfl, rfl⟩

theorem isTail_mark (mark : Text) (hmark : mark ∈ nameMarks) : IsTail mark := by
  obtain ⟨hfree, hne, hends, hbracket⟩ := nameMarks_sound mark hmark
  refine ⟨endsName_append hne hends, [.mark mark], fun hrest _ => hrest.mark mark hfree, ?_,
    fun key => .mark .nil mark⟩
  rw [isApart, hbracket]
  rfl

theorem isTail_close : IsTail ")" := isTail_mark ")" (by decide)

theorem isTail_brace : IsTail " \x7d" :=
  ⟨fun _ => rfl, [.mark "\x7d"], fun hrest _ => (hrest.mark "\x7d" (by decide)).space, rfl, fun _ =>
    .mark .nil _⟩

theorem IsTail.append (h : IsTail t) (hrest : IsTail rest) : IsTail (t ++ rest) := by
  obtain ⟨hends, tokens, hspells, hapart, honly⟩ := h
  obtain ⟨hends', more, hspells', hapart', honly'⟩ := hrest
  refine ⟨fun rest' => ?_, tokens ++ more, fun {rest' following} h hfollows => ?_, ?_, fun key => ?_⟩
  · rw [List.append_assoc]
    exact hends _
  · rw [List.append_assoc, List.append_assoc]
    exact hspells (hspells' h hfollows) (hends' rest')
  · cases tokens with
    | nil => exact hapart'
    | cons => exact hapart
  · exact (honly key).append (honly' key) hapart'

/-- Further arguments. -/
theorem isTail_more (h : Encloses [] t) (hrest : IsTail rest) : IsTail (", " ++ t ++ rest) := by
  obtain ⟨front, back, hspells, honly⟩ := h
  obtain ⟨hends, more, hspells', hapart, honly'⟩ := hrest
  rw [List.nil_append] at hspells
  refine ⟨fun _ => rfl, .mark "," :: (front ++ back ++ more), fun {rest' following} h hfollows =>
    ?_, rfl, fun key => ?_⟩
  · have hwritten := (hspells (hspells' h hfollows) (hends rest')).space.mark "," (by decide)
    simpa [blank_eq] using hwritten
  · exact .mark (((honly key .nil).append (honly' key) hapart)) ","

/-- The call of a method with an argument. -/
theorem isTail_method {name : Text} (hname : name.isIdentifier) (h : Encloses [] t) :
    IsTail ("." ++ name ++ "(" ++ t ++ ")") := by
  obtain ⟨front, back, hspells, honly⟩ := h
  rw [List.nil_append] at hspells
  refine ⟨fun _ => rfl, .mark "." :: .ofName name :: .mark "(" :: (front ++ back ++ [.mark ")"]),
    fun {rest' following} h hfollows => ?_, rfl, fun key => ?_⟩
  · have harguments := (hspells (h.mark ")" (by decide)) rfl).mark "(" (by decide)
    have hlabel := harguments.label name hname rfl
    simpa using hlabel
  · have harguments := ((honly key .nil).append (.mark .nil ")") rfl).mark "("
    exact (harguments.word name rfl).mark "."

/-! ### Code around code -/

theorem Encloses.refl (h : Consists t inner) : Encloses inner t :=
  ⟨[], [], fun hrest hends => by simpa using h hrest hends, by simp⟩

/-- Code around code that looks nothing up is code around nothing. -/
theorem Encloses.plain (h : Encloses inner t) (hinner : ∀ key, OnlyLooksUp key inner) :
    Encloses [] t := by
  obtain ⟨front, back, hspells, honly⟩ := h
  exact ⟨front ++ (inner ++ back), [],
    fun hrest hends => by simpa using hspells hrest hends, fun key _ => by
    simpa using honly key (hinner key)⟩

theorem Encloses.behind (h : Encloses inner rest) (hlead : IsLead t) : Encloses inner (t ++ rest) := by
  obtain ⟨tokens, hspells, honly⟩ := hlead
  obtain ⟨front, back, hspells', honly'⟩ := h
  refine ⟨tokens ++ front, back, fun hrest hends => ?_, fun key hinner => ?_⟩
  · simpa using hspells (hspells' hrest hends)
  · simpa using honly (honly' key hinner)

theorem Encloses.before (h : Encloses inner t) (htail : IsTail rest) : Encloses inner (t ++ rest) := by
  obtain ⟨hends, tokens, hspells, hapart, honly⟩ := htail
  obtain ⟨front, back, hspells', honly'⟩ := h
  refine ⟨front, back ++ tokens, fun {rest' following} hrest hfollows => ?_, fun key hinner => ?_⟩
  · simpa using hspells' (hspells hrest hfollows) (hends rest')
  · simpa using (honly' key hinner).append (honly key) hapart

private theorem guard_eq :
    Text.ofString " == null ? " = 0x20 :: (Text.ofString "==" ++ 0x20 :: (Text.ofString "null" ++ 0x20 ::
    (Text.ofString "?" ++ [0x20]))) ∧ Text.ofString " : " = 0x20 :: (Text.ofString ":" ++ [0x20]) :=
      ⟨rfl, rfl⟩

/-- Data in place of what is null, and otherwise code around the same. -/
theorem Encloses.guarded {data : Text} (hinner : Consists t inner) (hdata : IsData data)
    (h : Encloses inner rest) :
    Encloses inner (t ++ " == null ? " ++ data ++ " : " ++ rest) := by
  obtain ⟨tokens, hwrites, honly⟩ := hdata
  obtain ⟨front, back, hspells, honly'⟩ := h
  refine ⟨[], .mark "==" :: .ofName "null" :: .mark "?" ::
    (tokens ++ .mark ":" :: (front ++ (inner ++ back))), fun hrest hends => ?_, fun key hkey => ?_⟩
  · have hotherwise := ((hspells hrest hends).space.mark ":" (by decide)).space
    have hnull :=
      ((hwrites.spells hotherwise rfl).space.question.space.word "null" rfl rfl).space.equal.space
    have hwritten := hinner hnull rfl
    simpa [guard_eq] using hwritten
  · have hotherwise : OnlyLooksUp key (.mark ":" :: (front ++ (inner ++ back))) :=
      (honly' key hkey).mark ":"
    have hdata := ((((honly key).append hotherwise rfl).mark "?").word "null" rfl).mark "=="
    exact hkey.append hdata rfl

theorem encloses_quote (value : Text) : Encloses [] value.quote :=
  ⟨[.string value false], [], fun hrest _ => hrest.quote value, fun _ _ =>
    .cons (by simp) (by simp [Token.ofName]) .nil⟩

theorem consists_access (key : Text) : Consists (Emit.jsonAccess key) (lookUp key) := by
  have hopen : Text.ofString "json[" = Text.ofString "json" ++ Text.ofString "[" := rfl
  intro rest following hrest _
  have hwritten := (((hrest.mark "]" (by decide)).quote key).mark "[" (by decide)).word "json" rfl rfl
  simpa [Emit.jsonAccess, lookUp, hopen] using hwritten

/-- Code around a look-up looks up the key of that. -/
theorem Encloses.looksUp_iff (h : Encloses (lookUp key) t) : LooksUp t other ↔ other = key := by
  obtain ⟨front, back, hspells, honly⟩ := h
  have htokens : OnlyLooksUp key (front ++ (lookUp key ++ back)) :=
    honly key (by simpa using OnlyLooksUp.nil.lookUp)
  have hwhole := hspells Spells.finish rfl
  rw [List.append_nil] at hwhole
  rw [Script.looksUp_iff hwhole htokens.finish_not_mem]
  constructor
  · exact htokens.eq_key
  · rintro rfl
    exact ⟨front, back, by simp⟩

/-- Code around nothing looks nothing up. -/
theorem Encloses.not_looksUp (h : Encloses [] t) : ¬ LooksUp t key := by
  obtain ⟨front, back, hspells, honly⟩ := h
  have htokens (other : Text) : OnlyLooksUp other (front ++ ([] ++ back)) := honly other .nil
  have hwhole := hspells Spells.finish rfl
  rw [List.append_nil] at hwhole
  rw [Script.looksUp_iff hwhole (htokens []).finish_not_mem]
  -- the tokens would look up one key only, whichever that is
  intro hinfix
  have hne : (CodeUnit.ofChar 'k' :: key : Text) ≠ key :=
    fun heq => absurd (congrArg List.length heq) (by simp)
  exact hne ((htokens _).eq_key hinfix).symm

/-! ### Data -/

private theorem onlyLooksUp_comma {parts : List (List Token)}
    (h : ∀ part ∈ parts, OnlyLooksUp key part) :
    OnlyLooksUp key (commaTokens parts) := by
  induction parts with
  | nil => exact .nil
  | cons part parts ih =>
    obtain ⟨hpart, hparts⟩ := List.forall_mem_cons.1 h
    cases parts with
    | nil => exact hpart
    | cons next parts => exact hpart.append ((ih hparts).mark ",") rfl

private theorem onlyLooksUp_key (property : Text) : OnlyLooksUp key (keyTokens property) := by
  have hstring (tokens : List Token) (h : OnlyLooksUp key tokens) :
      OnlyLooksUp key (.string property false :: tokens) :=
    .cons (by simp) (by simp [Token.ofName]) h
  unfold keyTokens
  split
  · exact (hstring _ (.mark .nil "]")).mark "["
  · split
    · exact .word .nil property rfl
    · exact hstring _ .nil

private theorem Atom.onlyLooksUp (atom : Atom) : OnlyLooksUp key [atom.token] := by
  refine .cons (fun hfinish => ?_) (fun _ => rfl) .nil
  have hmeans := atom.means
  rw [hfinish] at hmeans
  cases hmeans with
  | literal h => cases h

namespace Datum

mutual

private theorem onlyLooksUp (key : Text) : ∀ d : Datum, OnlyLooksUp key d.tokens
  | .atom a => a.onlyLooksUp
  | .negative a => a.onlyLooksUp.mark "-"
  | .list items =>
      ((onlyLooksUp_comma (onlyLooksUp_items key items)).append (.mark .nil "]") rfl).mark "["
  | .record entries =>
      ((onlyLooksUp_comma (onlyLooksUp_entries key entries)).append (.mark .nil "\x7d") rfl).mark "\x7b"

private theorem onlyLooksUp_items (key : Text) :
    ∀ items : List Datum, ∀ part ∈ itemTokens items, OnlyLooksUp key part
  | [] => fun _ hmem => absurd hmem List.not_mem_nil
  | item :: items => List.forall_mem_cons.2 ⟨onlyLooksUp key item, onlyLooksUp_items key items⟩

private theorem onlyLooksUp_entries (key : Text) :
    ∀ entries : List (Text × Datum), ∀ part ∈ entryTokens entries, OnlyLooksUp key part
  | [] => fun _ hmem => absurd hmem List.not_mem_nil
  | (property, value) :: entries => List.forall_mem_cons.2
      ⟨(onlyLooksUp_key property).append ((onlyLooksUp key value).mark ":") rfl,
        onlyLooksUp_entries key entries⟩

end

theorem isData (d : Datum) : IsData d.text := ⟨d.tokens, d.writes, fun key => d.onlyLooksUp key⟩

end Datum

theorem isData_null : IsData "null" :=
  (Datum.atom (.word "null" .null rfl .null ⟨_, _, rfl, by decide, by decide⟩)).isData

end JsonCompanion.Script
