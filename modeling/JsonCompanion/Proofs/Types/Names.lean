import JsonCompanion.Proofs.Text.Dotted
import JsonCompanion.Types.TypeRef

/-!
# Names of declared types

* `TypeRef.IsNamed` says that a type and its arguments have names with points, and that a union of
  several types has arguments.
* `TypeRef.parse_isNamed`: every type that is read has such names.
* `TypeRef.inductionOnArgs` is the induction over a type and its arguments.
-/

namespace JsonCompanion.TypeRef

/-- The name of a type with some arguments. -/
def isTypeName (name : Text) (args : List TypeRef) : Prop := name.isDotted ∨ name = unionName ∧ args ≠ []

mutual

/-- The type and its arguments have names of types. -/
def IsNamed : TypeRef → Prop
  | ⟨name, args, _, _⟩ => isTypeName name args ∧ AreNamed args

/-- All of some types have names of types. -/
def AreNamed : List TypeRef → Prop
  | [] => True
  | type :: types => type.IsNamed ∧ AreNamed types

end

theorem sizeOf_lt_of_mem_args {arg type : TypeRef} (h : arg ∈ type.args) : sizeOf arg < sizeOf type := by
  have hlist := List.sizeOf_lt_of_mem h
  cases type
  simp only [TypeRef.mk.sizeOf_spec] at hlist ⊢
  omega

/-- What holds of a type whenever it holds of its arguments holds of every type. -/
@[elab_as_elim]
theorem inductionOnArgs {motive : TypeRef → Prop}
    (step : ∀ type : TypeRef, (∀ arg ∈ type.args, motive arg) → motive type) (type : TypeRef) :
    motive type := by
  refine step type fun arg harg => ?_
  have hsmaller : sizeOf arg < sizeOf type := sizeOf_lt_of_mem_args harg
  exact inductionOnArgs step arg
termination_by sizeOf type

theorem areNamed_iff {types : List TypeRef} : AreNamed types ↔ ∀ type ∈ types, type.IsNamed := by
  induction types with
  | nil => exact iff_of_true trivial (by simp)
  | cons type types ih => rw [AreNamed, ih, List.forall_mem_cons]

theorem isNamed_iff {type : TypeRef} :
    type.IsNamed ↔ isTypeName type.name type.args ∧ ∀ arg ∈ type.args, arg.IsNamed := by
  rw [← areNamed_iff]
  cases type
  rfl

/-! ### Tokens -/

/-- A name among the tokens is dotted. -/
def Token.IsNamed : Token → Prop
  | .name label => label.isDotted
  | .mark _ => True

/-- A name in front of a text: dotted so far, or up to a point in front of another name. -/
def IsTaken (taken rest : Text) : Prop :=
  ∃ front last : Text, taken.reverse = front ++ last ∧
    (∀ part : Text, part.isPlainIdentifier → Text.isDotted (front ++ part)) ∧
    (last.isPlainIdentifier ∨ last = [] ∧ rest.head?.any Text.beginsPlainIdentifier)

theorem isTaken_begin {u : CodeUnit} {rest : Text} (h : Text.beginsPlainIdentifier u) :
    IsTaken [u] rest :=
  ⟨[], [u], rfl, fun _ hname => Text.isDotted_of_plain hname, .inl (Bool.and_eq_true_iff.mpr ⟨h, rfl⟩)⟩

theorem isTaken_continue {taken rest : Text} {u : CodeUnit} (h : IsTaken taken (u :: rest))
    (hcontinues : continuesName taken u rest) : IsTaken (u :: taken) rest := by
  obtain ⟨front, last, heq, hfront, hlast⟩ := h
  obtain ⟨-, hu⟩ := Bool.and_eq_true_iff.mp hcontinues
  rcases hlast with hlast | ⟨rfl, hbegins⟩
  · rcases Bool.or_eq_true_iff.mp hu with hword | hpoint
    · refine ⟨front, last ++ [u], by rw [List.reverse_cons, heq, List.append_assoc], hfront, .inl ?_⟩
      exact Text.isPlainIdentifier_append hlast (by rw [List.all_cons, hword]; rfl)
    · obtain ⟨hpoint, hbegins⟩ := Bool.and_eq_true_iff.mp hpoint
      obtain rfl : u = CodeUnit.ofChar '.' := by simpa using hpoint
      refine ⟨front ++ last ++ [CodeUnit.ofChar '.'],
        [], by rw [List.reverse_cons, heq, List.append_nil], fun part hpart => ?_,
        .inr ⟨rfl, hbegins⟩⟩
      rw [List.append_assoc _ [_], List.singleton_append]
      exact Text.isDotted_append (hfront last hlast) (Text.isDotted_of_plain hpart)
  · refine ⟨front, [u], by rw [List.reverse_cons, heq, List.append_nil], hfront, .inl ?_⟩
    exact Bool.and_eq_true_iff.mpr ⟨hbegins, rfl⟩

theorem flush_named {taken rest : Text} (h : taken ≠ [] → IsTaken taken rest)
    (hstop : ∀ u us, rest = u :: us → continuesName taken u us = false) :
    ∀ token ∈ flush taken, token.IsNamed := by
  match taken with
  | [] => exact fun _ hmem => absurd hmem List.not_mem_nil
  | u :: us =>
    obtain ⟨front, last, heq, hfront, hlast | ⟨-, hbegins⟩⟩ := h (List.cons_ne_nil _ _)
    · intro token hmem
      obtain rfl : token = .name (u :: us).reverse := List.mem_singleton.mp hmem
      rw [heq]
      exact hfront last hlast
    · match rest with
      | [] => cases hbegins
      | v :: vs =>
        have hcontinues : continuesName (u :: us) v vs = true := by
          rw [continuesName, Text.continues_of_begins hbegins]
          rfl
        exact absurd (hcontinues.symm.trans (hstop v vs rfl)) Bool.noConfusion

private theorem tokens?_named {taken text : Text} {tokens : List Token}
    (htaken : taken ≠ [] → IsTaken taken text) (h : tokens? taken text = some tokens) :
    ∀ token ∈ tokens, token.IsNamed := by
  induction text generalizing taken tokens with
  | nil =>
    cases h
    exact flush_named htaken fun u us heq => (List.cons_ne_nil _ _ heq.symm).elim
  | cons u us ih =>
    rw [tokens?] at h
    split at h
    · next hcontinues =>
      have hne : taken ≠ [] := by
        rintro rfl
        cases hcontinues
      exact ih (fun _ => isTaken_continue (htaken hne) hcontinues) h
    · next hstop =>
      -- a name ends here, if one was begun
      have hflush := flush_named htaken fun v vs heq => by
        obtain ⟨rfl, rfl⟩ := List.cons.inj heq
        exact Bool.not_eq_true _ ▸ hstop
      obtain ⟨rest, hrest, rfl⟩ := Option.map_eq_some_iff.mp h
      refine fun token hmem => (List.mem_append.mp hmem).elim (hflush token) fun hmem => ?_
      split at hrest
      · next hbegins => exact ih (fun _ => isTaken_begin hbegins) hrest token hmem
      · split at hrest
        · obtain ⟨more, hmore, rfl⟩ := Option.map_eq_some_iff.mp hrest
          rcases List.mem_cons.mp hmem with rfl | hmem
          · exact True.intro
          · exact ih (fun hne => absurd rfl hne) hmore token hmem
        · split at hrest
          · exact ih (fun hne => absurd rfl hne) hrest token hmem
          · cases hrest

/-! ### Meaning -/

private theorem ofUnion_named {members : List TypeRef} (hne : members ≠ [])
    (h : ∀ member ∈ members, member.IsNamed) :
    (ofUnion members).IsNamed := by
  have hpresent : ∀ member ∈ members.filter (fun member => !member.isNullish), member.IsNamed :=
    fun member hmem => h member (List.mem_filter.mp hmem).1
  unfold ofUnion
  simp only
  split
  · next single heq =>
    have hsingle : single.IsNamed := hpresent single (heq ▸ List.mem_singleton.mpr rfl)
    split
    · rw [orNull]
      split
      · exact hsingle
      · cases single
        exact hsingle
    · exact hsingle
  · split
    · exact ⟨.inr ⟨rfl, hne⟩, areNamed_iff.mpr h⟩
    · next hfull =>
        exact ⟨.inr ⟨rfl, fun heq => hfull (List.isEmpty_iff.mpr heq)⟩, areNamed_iff.mpr hpresent⟩

/-! ### Grammar -/

/-- A part of the grammar takes tokens from the front and gives what has names of types. -/
def Takes {α : Type} (part : List Token → Option (α × List Token)) (P : α → Prop) : Prop :=
  ∀ {tokens a rest}, (∀ token ∈ tokens, token.IsNamed) → part tokens = some (a, rest) →
    P a ∧ ∀ token ∈ rest, token.IsNamed

private theorem behind?_named {c : Char} {tokens rest : List Token} (h : ∀ token ∈ tokens, token.IsNamed)
    (hrest : behind? c tokens = some rest) : ∀ token ∈ rest, token.IsNamed := by
  unfold behind? at hrest
  split at hrest
  · cases hrest
    exact fun token hmem => h token (List.mem_of_mem_tail hmem)
  · cases hrest

private theorem suffixes_takes {type : TypeRef} (htype : type.IsNamed) :
    Takes (suffixes type) IsNamed := by
  intro tokens a rest h heq
  fun_induction suffixes type tokens with
  | case1 type u v tokens hu hv ih =>
    have harray : type.arrayOf.IsNamed := ⟨.inl (by decide), htype, trivial⟩
    exact ih harray (fun token hmem => h token (by simp [hmem])) heq
  | case2 => cases heq
  | case3 =>
    cases heq
    exact ⟨htype, h⟩
  | case4 => cases heq
  | case5 =>
    cases heq
    exact ⟨htype, h⟩

/-- All parts of the grammar at some depth. -/
private theorem grammar_takes (depth : Nat) : Takes (union depth) IsNamed ∧
    (∀ separator, Takes (list separator depth) fun types => types ≠ [] ∧ ∀ type ∈ types, type.IsNamed) ∧
    Takes (postfixed depth) IsNamed ∧ Takes (primary depth) IsNamed := by
  induction depth with
  | zero =>
    refine ⟨fun _ h => ?_, fun _ => fun _ h => ?_, fun _ h => ?_, fun _ h => ?_⟩ <;>
      simp [union, list, postfixed, primary] at h
  | succ depth ih =>
    obtain ⟨hunion, hlist, hpostfixed, hprimary⟩ := ih
    refine ⟨?_, ?_, ?_, ?_⟩
    · intro tokens a rest h heq
      rw [union] at heq
      obtain ⟨⟨members, tokens'⟩, hmembers, heq⟩ := Option.bind_eq_some_iff.mp heq
      obtain ⟨⟨hne, hall⟩, hrest⟩ := hlist '|' h hmembers
      cases heq
      exact ⟨ofUnion_named hne hall, hrest⟩
    · intro separator tokens types rest h heq
      rw [list] at heq
      split at heq <;> obtain ⟨⟨first, tokens'⟩, hfirst, heq⟩ := Option.bind_eq_some_iff.mp heq
      -- the separator decides which part of the grammar the first type is, not what may follow it
      case' isTrue => have hnamed := hpostfixed h hfirst
      case' isFalse => have hnamed := hunion h hfirst
      all_goals
        dsimp only at heq
        split at heq
        · next behind hbehind =>
          obtain ⟨⟨members, tokens''⟩, hmembers, heq⟩ := Option.bind_eq_some_iff.mp heq
          obtain ⟨⟨-, hall⟩, hrest⟩ := hlist separator (behind?_named hnamed.2 hbehind) hmembers
          cases heq
          exact ⟨⟨List.cons_ne_nil _ _, List.forall_mem_cons.mpr ⟨hnamed.1, hall⟩⟩, hrest⟩
        · cases heq
          exact ⟨⟨List.cons_ne_nil _ _, List.forall_mem_singleton.mpr hnamed.1⟩, hnamed.2⟩
    · intro tokens a rest h heq
      rw [postfixed] at heq
      obtain ⟨⟨type, tokens'⟩, htype, heq⟩ := Option.bind_eq_some_iff.mp heq
      obtain ⟨hnamed, hrest⟩ := hprimary h htype
      exact suffixes_takes hnamed hrest heq
    · intro tokens a rest h heq
      unfold primary at heq
      split at heq
      · next label tokens =>
        obtain ⟨hlabel, htokens⟩ := List.forall_mem_cons.mp h
        split at heq
        · next behind hbehind =>
          obtain ⟨⟨args, tokens'⟩, hargs, heq⟩ := Option.bind_eq_some_iff.mp heq
          obtain ⟨⟨-, hall⟩, hrest⟩ := hlist ',' (behind?_named htokens hbehind) hargs
          obtain ⟨tokens'', hclose, heq⟩ := Option.bind_eq_some_iff.mp heq
          cases heq
          exact ⟨⟨.inl hlabel, areNamed_iff.mpr hall⟩, behind?_named hrest hclose⟩
        · cases heq
          exact ⟨⟨.inl hlabel, trivial⟩, htokens⟩
      · obtain ⟨behind, hopen, heq⟩ := Option.bind_eq_some_iff.mp heq
        obtain ⟨⟨type, tokens'⟩, htype, heq⟩ := Option.bind_eq_some_iff.mp heq
        obtain ⟨hnamed, hrest⟩ := hunion (behind?_named h hopen) htype
        obtain ⟨tokens'', hclose, heq⟩ := Option.bind_eq_some_iff.mp heq
        cases heq
        exact ⟨hnamed, behind?_named hrest hclose⟩

/-- Every type that is read has names with points, itself and in its arguments. -/
theorem parse_isNamed {text element : Text} {type : TypeRef} (h : parse text element = .ok type) :
    type.IsNamed := by
  unfold parse at h
  split at h
  · next type' heq =>
    cases h
    obtain ⟨tokens, htokens, htype⟩ := Option.bind_eq_some_iff.mp heq
    have hnamed : ∀ token ∈ tokens, token.IsNamed := tokens?_named (fun hne => absurd rfl hne) htokens
    unfold ofTokens? at htype
    split at htype
    · next type'' hunion =>
      cases htype
      exact ((grammar_takes _).1 hnamed hunion).1
    · cases htype
  · cases h

end JsonCompanion.TypeRef
