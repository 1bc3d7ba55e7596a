import JsonCompanion.Proofs.Types.Names

/-!
# Tokens of types

* `TypeRef.Splits` says how a text is cut into tokens: blanks may stand in front of each of them and
  behind the last one, and each is the longest one at its place.
* `TypeRef.tokens?_eq_some_iff`: the scanner finds these tokens, and no others.
* `TypeRef.Splits.append`: texts one behind the other have the tokens of both, unless the second
  continues a name.
-/

namespace JsonCompanion.TypeRef

open Text

/-- The units of a token. -/
def Token.text : Token → Text
  | .name label => label
  | .mark unit => [unit]

/-- The token is a name with points or a mark. -/
def Token.IsWord : Token → Prop
  | .name label => label.isDotted
  | .mark unit => isMark unit

/-- No token that stands at the front of a text is longer. -/
def Token.IsLongest (token : Token) (text : Text) : Prop :=
  ∀ other : Token, other.IsWord → other.text <+: text → other.text.length ≤ token.text.length

/-- A text is cut into tokens, each the longest one at its place, with blanks in front of them and
behind the last. -/
inductive Splits : Text → List Token → Prop
  | done {gap : Text} (hgap : gap.isBlank) : Splits gap []
  | next {gap rest : Text} {token : Token} {tokens : List Token} (hgap : gap.isBlank)
      (hword : token.IsWord)
    (hlongest : token.IsLongest (token.text ++ rest)) (hrest : Splits rest tokens) :
    Splits (gap ++ (token.text ++ rest)) (token :: tokens)

/-! ### Units -/

private theorem blank_classes {u : CodeUnit} (h : u.isBlank) :
    continuesPlainIdentifier u = false ∧ isMark u = false ∧ u ≠ CodeUnit.ofChar '.' := by
  simp only [CodeUnit.isBlank, Bool.or_eq_true, Bool.and_eq_true, decide_eq_true_eq, beq_iff_eq,
    ← UInt16.toNat_inj] at h
  have hvalue : u.toNat ≤ 32 ∨ 160 ≤ u.toNat := by
    simp at h
    omega
  refine ⟨?_, ?_, ?_⟩
  · rw [← Bool.not_eq_true]
    intro hcontinues
    simp [continuesPlainIdentifier, CodeUnit.isWord, CodeUnit.isSmall, CodeUnit.isCapital,
      CodeUnit.isDigit, CodeUnit.between, ← UInt16.toNat_inj, CodeUnit.ofChar] at hcontinues
    omega
  · rw [← Bool.not_eq_true]
    intro hmark
    simp [isMark, ← UInt16.toNat_inj, CodeUnit.ofChar] at hmark
    omega
  · rintro rfl
    simp [CodeUnit.ofChar] at hvalue

private theorem mark_classes {u : CodeUnit} (h : isMark u) :
    continuesPlainIdentifier u = false ∧ u ≠ CodeUnit.ofChar '.' := by
  simp only [isMark, Bool.or_eq_true, beq_iff_eq] at h
  rcases h with ((((((h | h) | h) | h) | h) | h) | h) | h <;> subst h <;> decide

private theorem not_begins {u : CodeUnit} (h : continuesPlainIdentifier u = false) :
    beginsPlainIdentifier u = false := by
  rw [← Bool.not_eq_true] at h ⊢
  exact fun hbegins => h (continues_of_begins hbegins)

private theorem ne_nil_of_dotted {label : Text} (h : label.isDotted) : label ≠ [] := by
  obtain ⟨u, us, rfl, -⟩ := begins_of_dotted h
  exact List.cons_ne_nil u us

theorem Token.IsWord.text_ne_nil {token : Token} (h : token.IsWord) : token.text ≠ [] := by
  cases token with
  | name label => exact ne_nil_of_dotted h
  | mark unit => exact List.cons_ne_nil unit []

/-! ### The longest token -/

/-- A unit that no name holds. -/
def endsName (u : CodeUnit) : Bool := !continuesPlainIdentifier u && u != CodeUnit.ofChar '.'

/-- A text in front of which a name ends. -/
def isApart (text : Text) : Bool := text.head?.all endsName

private theorem not_mem_of_endsName {u : CodeUnit} (h : endsName u) {label : Text}
    (hlabel : label.isDotted) :
    u ∉ label := by
  intro hmem
  simp only [endsName, Bool.and_eq_true, Bool.not_eq_true', bne_iff_ne, ne_eq] at h
  rcases continues_of_dotted hlabel hmem with hcontinues | hpoint
  · rw [h.1] at hcontinues
    cases hcontinues
  · exact h.2 hpoint

/-- A name that cannot go on is the longest token. -/
private theorem isLongest_name {label rest : Text} (hne : label ≠ [])
    (hstop : ∀ u us, rest = u :: us → continuesName label.reverse u us = false) :
    (Token.name label).IsLongest (label ++ rest) := by
  intro other hword hfront
  cases other with
  | mark unit => exact List.length_pos_iff.mpr hne
  | name longer =>
    refine Nat.le_of_not_lt fun hlt => ?_
    obtain ⟨more, rfl⟩ :=
      List.prefix_of_prefix_length_le (List.prefix_append label rest) hfront (Nat.le_of_lt hlt)
    rw [Token.text, List.prefix_append_right_inj] at hfront
    cases more with
    | nil => simp [Token.text] at hlt
    | cons v vs =>
      obtain ⟨us, rfl⟩ := hfront
      have hnot := hstop v (vs ++ us) rfl
      simp only [continuesName, List.isEmpty_reverse, Bool.and_eq_false_iff, Bool.not_eq_false',
        List.isEmpty_iff, hne, false_or, Bool.or_eq_false_iff] at hnot
      obtain ⟨hplain, hpoint⟩ := hnot
      -- the unit behind the name belongs to the longer one, so it is a point, and another name follows
      rcases continues_of_dotted hword (u := v) (by simp) with hcontinues | rfl
      · rw [hplain] at hcontinues
        cases hcontinues
      · obtain ⟨w, ws, rfl, hbegins⟩ := begins_of_dotted (isDotted_behind hword)
        simp [hbegins] at hpoint

private theorem isLongest_mark {unit : CodeUnit} {rest : Text} (h : isMark unit) :
    (Token.mark unit).IsLongest (unit :: rest) := by
  intro other hword hfront
  cases other with
  | mark unit' => exact Nat.le_refl 1
  | name label =>
    obtain ⟨u, us, rfl, hbegins⟩ := begins_of_dotted hword
    obtain ⟨rfl, -⟩ := List.cons_prefix_cons.mp hfront
    rw [not_begins (mark_classes h).1] at hbegins
    cases hbegins

/-- What follows a text in front of which names end makes no token longer. -/
private theorem Token.IsLongest.append {token : Token} {text behind : Text} (h : token.IsLongest text)
    (hbehind : isApart behind) (hne : text ≠ []) : token.IsLongest (text ++ behind) := by
  intro other hword hfront
  rcases Nat.le_total other.text.length text.length with hle | hle
  · exact h other hword (List.prefix_of_prefix_length_le hfront (List.prefix_append text behind) hle)
  · obtain ⟨more, hmore⟩ := List.prefix_of_prefix_length_le (List.prefix_append text behind) hfront hle
    cases more with
    | nil =>
      rw [List.append_nil] at hmore
      exact h other hword (hmore ▸ List.prefix_refl text)
    | cons v vs =>
      rw [← hmore, List.prefix_append_right_inj] at hfront
      obtain ⟨us, rfl⟩ := hfront
      cases other with
      | mark unit =>
        have hlength := congrArg List.length hmore
        have hpos := List.length_pos_iff.mpr hne
        simp [Token.text] at hlength
        omega
      | name label =>
        have hmem : v ∈ label := (show text ++ v :: vs = label from hmore) ▸ by simp
        exact absurd hmem (not_mem_of_endsName hbehind hword)

/-! ### Texts with tokens -/

theorem Splits.isWord {text : Text} {tokens : List Token} (h : Splits text tokens) :
    ∀ token ∈ tokens, token.IsWord := by
  induction h with
  | done => simp
  | next _ hword _ _ ih => exact List.forall_mem_cons.mpr ⟨hword, ih⟩

private theorem isBlank_append {gap more : Text} (hgap : gap.isBlank) (hmore : more.isBlank) :
    (gap ++ more).isBlank := by
  rw [Text.isBlank, List.all_append, Bool.and_eq_true]
  exact ⟨hgap, hmore⟩

/-- Blanks in front make no difference. -/
theorem Splits.gap {text : Text} {tokens : List Token} (h : Splits text tokens) (gap : Text)
    (hgap : gap.isBlank) :
    Splits (gap ++ text) tokens := by
  cases h with
  | done hmore => exact .done (isBlank_append hgap hmore)
  | @next more rest token tokens hmore hword hlongest hrest =>
    rw [← List.append_assoc]
    exact .next (isBlank_append hgap hmore) hword hlongest hrest

/-- Texts one behind the other have the tokens of both, provided that the second one does not
continue a name. -/
theorem Splits.append {text behind : Text} {tokens more : List Token} (h : Splits text tokens)
    (hbehind : Splits behind more) (hapart : isApart behind) :
    Splits (text ++ behind) (tokens ++ more) := by
  induction h with
  | done hgap => exact hbehind.gap _ hgap
  | @next gap rest token tokens hgap hword hlongest _ ih =>
    have hne : token.text ++ rest ≠ [] := List.append_ne_nil_of_left_ne_nil hword.text_ne_nil rest
    have hlonger := hlongest.append hapart hne
    rw [List.append_assoc] at hlonger
    rw [List.append_assoc, List.append_assoc]
    exact .next hgap hword hlonger ih

/-- Tokens one behind the other cut the text in two. -/
theorem Splits.cut {text : Text} {tokens more : List Token} (h : Splits text (tokens ++ more)) :
    ∃ front behind, text = front ++ behind ∧ Splits front tokens ∧ Splits behind more := by
  induction tokens generalizing text with
  | nil => exact ⟨[], text, rfl, .done rfl, h⟩
  | cons token tokens ih =>
    cases h with
    | @next gap rest _ _ hgap hword hlongest hrest =>
      obtain ⟨front, behind, rfl, hfront, hbehind⟩ := ih hrest
      have hshorter : token.IsLongest (token.text ++ front) := by
        intro other hother hlead
        refine hlongest other hother (hlead.trans ?_)
        rw [← List.append_assoc]
        exact List.prefix_append _ behind
      exact ⟨gap ++ (token.text ++ front), behind, by simp only [List.append_assoc],
        .next hgap hword hshorter hfront, hbehind⟩

/-- A mark is a token by itself. -/
theorem splits_mark {unit : CodeUnit} {text : Text} {tokens : List Token} (hmark : isMark unit)
    (h : Splits text tokens) : Splits (unit :: text) (.mark unit :: tokens) := by
  have hsplits : Splits ([] ++ ((Token.mark unit).text ++ text)) (.mark unit :: tokens) :=
    .next rfl hmark (isLongest_mark hmark) h
  exact hsplits

/-- A name with points is a token. -/
theorem splits_name {label : Text} (h : label.isDotted) : Splits label [.name label] := by
  have hlongest : (Token.name label).IsLongest (label ++ []) :=
    isLongest_name (ne_nil_of_dotted h) fun u us heq => by cases heq
  have hsplits : Splits ([] ++ ((Token.name label).text ++ [])) [.name label] :=
    .next rfl h hlongest (.done rfl)
  rw [List.nil_append, List.append_nil] at hsplits
  exact hsplits

/-! ### The scanner -/

private theorem tokens?_nil : tokens? [] [] = some [] := rfl

private theorem tokens?_cons (u : CodeUnit) (us : Text) : tokens? [] (u :: us) =
    if beginsPlainIdentifier u then tokens? [u] us
    else if isMark u then (tokens? [] us).map (.mark u :: ·)
    else if u.isBlank then tokens? [] us
    else none := by
  rw [tokens?, if_neg (by simp [continuesName])]
  exact Option.map_id'

/-- A name that cannot go on is put in front of the tokens behind it. -/
private theorem tokens?_stop {taken rest : Text} (hne : taken ≠ [])
    (hstop : ∀ u us, rest = u :: us → continuesName taken u us = false) :
    tokens? taken rest = (tokens? [] rest).map (.name taken.reverse :: ·) := by
  have hflush : flush taken = [.name taken.reverse] := if_neg (by simpa using hne)
  cases rest with
  | nil => rw [tokens?, hflush, tokens?_nil, Option.map_some]
  | cons u us =>
    rw [tokens?_cons, tokens?, if_neg (by simp [hstop u us rfl]), hflush]
    rfl

/-- A name goes on as long as it can. -/
private theorem exists_name {taken text : Text} (hne : taken ≠ []) (htaken : IsTaken taken text) :
    ∃ more rest, text = more ++ rest ∧ Text.isDotted (taken.reverse ++ more) ∧
      (∀ u us, rest = u :: us → continuesName (taken.reverse ++ more).reverse u us = false) ∧
      tokens? taken text = (tokens? [] rest).map (.name (taken.reverse ++ more) :: ·) := by
  -- the units taken are the beginning of the name, the last one first
  induction text generalizing taken with
  | nil =>
    have hstop : ∀ u us, ([] : Text) = u :: us → continuesName taken u us = false :=
      fun u us heq => by cases heq
    have hdotted : Text.isDotted taken.reverse :=
      flush_named (fun _ => htaken) hstop (.name taken.reverse) (by simp [flush, hne])
    refine ⟨[], [], rfl, by simpa using hdotted, by simp, ?_⟩
    rw [tokens?_stop hne hstop, List.append_nil]
  | cons u us ih =>
    cases hcontinues : continuesName taken u us with
    | true =>
      obtain ⟨more, rest, rfl, hdotted, hstop, htokens⟩ :=
        ih (List.cons_ne_nil u taken) (isTaken_continue htaken hcontinues)
      have hreverse : (u :: taken).reverse ++ more = taken.reverse ++ u :: more := by simp
      rw [hreverse] at hdotted hstop htokens
      refine ⟨u :: more, rest, rfl, hdotted, hstop, ?_⟩
      rw [tokens?, if_pos hcontinues, htokens]
    | false =>
      have hstop : ∀ v vs, u :: us = v :: vs → continuesName taken v vs = false := by
        rintro v vs ⟨⟩
        exact hcontinues
      have hdotted : Text.isDotted taken.reverse :=
        flush_named (fun _ => htaken) hstop (.name taken.reverse) (by simp [flush, hne])
      refine ⟨[], u :: us, rfl, by simpa using hdotted, by simpa using hstop, ?_⟩
      rw [tokens?_stop hne hstop, List.append_nil]

/-- The name that a unit begins. -/
private theorem exists_name_of_begins {u : CodeUnit} (us : Text) (h : beginsPlainIdentifier u) :
    ∃ label rest : Text, u :: us = label ++ rest ∧ label.isDotted ∧
      (Token.name label).IsLongest (label ++ rest) ∧
      tokens? [] (u :: us) = (tokens? [] rest).map (.name label :: ·) := by
  have htaken : IsTaken [u] us := isTaken_begin h
  obtain ⟨more, rest, rfl, hdotted, hstop, htokens⟩ := exists_name (List.cons_ne_nil u []) htaken
  refine ⟨u :: more, rest, rfl, hdotted, isLongest_name (List.cons_ne_nil u more) hstop, ?_⟩
  rw [tokens?_cons, if_pos h, htokens]
  rfl

private theorem splits_of_tokens? (text : Text) {tokens : List Token}
    (h : tokens? [] text = some tokens) :
    Splits text tokens := by
  -- the scanner goes on behind a whole name, so the induction is on the length
  induction hlength : text.length using Nat.strongRecOn generalizing text tokens with
  | _ n ih =>
    subst hlength
    cases text with
    | nil =>
      cases h
      exact .done rfl
    | cons u us =>
      cases hbegins : beginsPlainIdentifier u with
      | true =>
        obtain ⟨label, rest, heq, hdotted, hlongest, htokens⟩ := exists_name_of_begins us hbegins
        rw [htokens] at h
        obtain ⟨more, hmore, rfl⟩ := Option.map_eq_some_iff.mp h
        have hpos := List.length_pos_iff.mpr (ne_nil_of_dotted hdotted)
        have hshorter : rest.length < (u :: us).length := by
          rw [heq, List.length_append]
          exact Nat.lt_add_of_pos_left hpos
        have hrest : Splits rest more := ih rest.length hshorter rest hmore rfl
        have hsplits : Splits ([] ++ ((Token.name label).text ++ rest)) (.name label :: more) :=
          .next rfl hdotted hlongest hrest
        rw [heq]
        exact hsplits
      | false =>
        rw [tokens?_cons, if_neg (by simp [hbegins])] at h
        split at h
        · next hmark =>
          obtain ⟨more, hmore, rfl⟩ := Option.map_eq_some_iff.mp h
          exact splits_mark hmark (ih us.length (Nat.lt_succ_self _) us hmore rfl)
        · obtain ⟨hblank, h⟩ := Option.ite_none_right_eq_some.mp h
          have hrest : Splits us tokens := ih us.length (Nat.lt_succ_self _) us h rfl
          exact hrest.gap [u] (by simpa [Text.isBlank] using hblank)

private theorem tokens?_gap {gap : Text} (hgap : gap.isBlank) (text : Text) :
    tokens? [] (gap ++ text) = tokens? [] text := by
  induction gap with
  | nil => rfl
  | cons u us ih =>
    obtain ⟨hu, hus⟩ := Bool.and_eq_true_iff.mp hgap
    obtain ⟨hcontinues, hmark, -⟩ := blank_classes hu
    rw [List.cons_append, tokens?_cons, not_begins hcontinues, hmark, if_pos hu]
    exact ih hus

private theorem tokens?_of_splits {text : Text} {tokens : List Token} (h : Splits text tokens) :
    tokens? [] text = some tokens := by
  induction h with
  | @done gap hgap => simpa [tokens?_nil] using tokens?_gap hgap []
  | @next gap rest token tokens hgap hword hlongest _ ih =>
    rw [tokens?_gap hgap]
    cases token with
    | mark unit =>
      have hbegins := not_begins (mark_classes hword).1
      have hmark : isMark unit = true := hword
      rw [Token.text, List.singleton_append, tokens?_cons, hbegins, hmark, ih]
      rfl
    | name label =>
      obtain ⟨u, us, rfl, hbegins⟩ := begins_of_dotted hword
      obtain ⟨label', rest', heq, hdotted, hlongest', htokens⟩ :=
        exists_name_of_begins (us ++ rest) hbegins
      have heq : (u :: us) ++ rest = label' ++ rest' := heq
      -- both names are the longest one at this place
      have hle : label'.length ≤ (u :: us).length :=
        hlongest (.name label') hdotted (heq ▸ List.prefix_append label' rest')
      have hge : (u :: us).length ≤ label'.length :=
        hlongest' (.name (u :: us)) hword (heq ▸ List.prefix_append _ rest)
      obtain ⟨rfl, rfl⟩ := List.append_inj heq (Nat.le_antisymm hge hle)
      rw [Token.text]
      exact htokens.trans (by rw [ih]; rfl)

/-- The scanner finds the tokens of a text: each is the longest at its place, and nothing but blanks
stands between them and behind the last. -/
theorem tokens?_eq_some_iff {text : Text} {tokens : List Token} :
    tokens? [] text = some tokens ↔ Splits text tokens :=
  ⟨splits_of_tokens? text, tokens?_of_splits⟩

end JsonCompanion.TypeRef
