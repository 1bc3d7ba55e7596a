import JsonCompanion.Proofs.Types.Tokens

/-!
# The grammar of types

* `TypeExpr` is a type as it is written: its derivation in the grammar, with `TypeExpr.tokens` and
  the type that it stands for.
* `TypeRef.ofTokens?_eq_some_iff`: the reader accepts the tokens of these derivations, and no others.
* `TypeRef.parse_settles`: a text is read if it can be cut into the tokens of a derivation, and
  refused otherwise.
-/

namespace JsonCompanion

open TypeRef

/-! ### Derivations -/

mutual

/-- A union: members with bars between them. -/
inductive TypeExpr
  | single (member : TypeExpr.Member)
  | union (member : TypeExpr.Member) (rest : TypeExpr)

/-- A primary type with array suffixes behind it. -/
inductive TypeExpr.Member
  | plain (primary : TypeExpr.Primary)
  | array (element : TypeExpr.Member)

/-- A name, a name with arguments between angle brackets, or a union between parentheses. -/
inductive TypeExpr.Primary
  | name (label : Text)
  | applied (label : Text) (arguments : TypeExpr.Arguments)
  | group (inner : TypeExpr)

/-- Unions with commas between them. -/
inductive TypeExpr.Arguments
  | single (argument : TypeExpr)
  | more (argument : TypeExpr) (rest : TypeExpr.Arguments)

end

namespace TypeExpr

mutual

/-- The tokens of a union. -/
def tokens : TypeExpr → List Token
  | .single member => member.tokens
  | .union member rest => member.tokens ++ .mark '|' :: rest.tokens

/-- The tokens of a member. -/
def Member.tokens : Member → List Token
  | .plain primary => primary.tokens
  | .array element => element.tokens ++ [.mark '[', .mark ']']

/-- The tokens of a primary type. -/
def Primary.tokens : Primary → List Token
  | .name label => [.name label]
  | .applied label arguments => .name label :: .mark '<' :: (arguments.tokens ++ [.mark '>'])
  | .group inner => .mark '(' :: (inner.tokens ++ [.mark ')'])

/-- The tokens of arguments. -/
def Arguments.tokens : Arguments → List Token
  | .single argument => argument.tokens
  | .more argument rest => argument.tokens ++ .mark ',' :: rest.tokens

end

mutual

/-- The types of the members in order. -/
def memberTypes : TypeExpr → List TypeRef
  | .single member => [member.type]
  | .union member rest => member.type :: rest.memberTypes

/-- The type that a member stands for: every array suffix makes an array of what is in front of it. -/
def Member.type : Member → TypeRef
  | .plain primary => primary.type
  | .array element => element.type.arrayOf

/-- The type that a primary type stands for. -/
def Primary.type : Primary → TypeRef
  | .name label => .plain label
  | .applied label arguments => .applied label arguments.types
  | .group inner => .ofUnion inner.memberTypes

/-- The types of the arguments in order. -/
def Arguments.types : Arguments → List TypeRef
  | .single argument => [.ofUnion argument.memberTypes]
  | .more argument rest => .ofUnion argument.memberTypes :: rest.types

end

/-- The type that a union stands for. -/
def type (expression : TypeExpr) : TypeRef := .ofUnion expression.memberTypes

mutual

theorem length_tokens_pos : ∀ expression : TypeExpr, 0 < expression.tokens.length
  | .single member => by
    rw [tokens]
    exact member.length_tokens_pos
  | .union member rest => by
    rw [tokens, List.length_append, List.length_cons]
    omega

theorem Member.length_tokens_pos : ∀ member : Member, 0 < member.tokens.length
  | .plain primary => by
    rw [Member.tokens]
    cases primary <;> simp [Primary.tokens]
  | .array element => by
    rw [Member.tokens, List.length_append]
    simp

end

end TypeExpr

namespace TypeRef

/-! ### Reading a derivation -/

/-- The tokens do not begin with one of some marks. -/
def Avoids (marks : List Char) (tokens : List Token) : Prop := ∀ c ∈ marks, begins c tokens = false

private theorem avoids_mark {marks : List Char} {c : Char}
    (h : marks.all fun d => CodeUnit.ofChar c != CodeUnit.ofChar d) (rest : List Token) :
    Avoids marks (.mark c :: rest) :=
  fun d hd => beq_false_of_ne (bne_iff_ne.mp (List.all_eq_true.mp h d hd))

private theorem behind?_mark (c : Char) (rest : List Token) :
    behind? c (.mark c :: rest) = some rest := by
  rw [behind?, begins, if_pos (beq_self_eq_true _), List.tail_cons]

private theorem behind?_none {c : Char} {rest : List Token} (h : begins c rest = false) :
    behind? c rest = none := by
  rw [behind?, h]
  rfl

private theorem suffixes_array (type : TypeRef) (rest : List Token) :
    suffixes type (.mark '[' :: .mark ']' :: rest) = suffixes type.arrayOf rest := by
  rw [suffixes, if_pos (beq_self_eq_true _), if_pos (beq_self_eq_true _)]

private theorem suffixes_end {type : TypeRef} {rest : List Token} (h : begins '[' rest = false) :
    suffixes type rest = some (type, rest) := by
  unfold suffixes
  split
  · rw [begins] at h
    rw [h]
    rfl
  · rw [h]
    rfl

private theorem union_of_list {depth : Nat} {tokens rest : List Token} {types : List TypeRef}
    (h : list '|' depth tokens = some (types, rest)) :
    union (depth + 1) tokens = some (ofUnion types, rest) := by
  rw [union, h]
  rfl

open TypeExpr

mutual

/-- The members of a union are read up to what cannot belong to it.  Every token needs four levels
at most. -/
private theorem list_members : ∀ (expression : TypeExpr) (depth : Nat) (rest : List Token),
    4 * expression.tokens.length ≤ depth + 1 → Avoids ['|', '[', '<'] rest →
      list '|' depth (expression.tokens ++ rest) = some (expression.memberTypes, rest)
  | .single member, depth, rest, hdepth, hrest => by
    rw [TypeExpr.tokens] at hdepth ⊢
    have hpos := member.length_tokens_pos
    -- four rules are nested for each token
    obtain ⟨depth, rfl⟩ : ∃ d, depth = d + 1 := ⟨depth - 1, by omega⟩
    have hmember := postfixed_member member depth rest (by omega) (hrest '<' (by simp))
    rw [suffixes_end (hrest '[' (by simp))] at hmember
    rw [list, if_pos rfl, hmember]
    simp only [Option.bind_eq_bind, Option.bind_some]
    rw [behind?_none (hrest '|' (by simp)), memberTypes]
  | .union member more, depth, rest, hdepth, hrest => by
    rw [TypeExpr.tokens, List.length_append, List.length_cons] at hdepth
    have hpos := member.length_tokens_pos
    have hmore := more.length_tokens_pos
    obtain ⟨depth, rfl⟩ : ∃ d, depth = d + 1 := ⟨depth - 1, by omega⟩
    have hmember := postfixed_member member depth (.mark '|' :: (more.tokens ++ rest)) (by omega) rfl
    rw [suffixes_end rfl] at hmember
    have hmembers := list_members more depth rest (by omega) hrest
    rw [TypeExpr.tokens, List.append_assoc, List.cons_append, list, if_pos rfl, hmember]
    simp only [Option.bind_eq_bind, Option.bind_some]
    rw [behind?_mark]
    simp only
    rw [hmembers, memberTypes]
    rfl

/-- A primary type is read, and then the suffixes behind it are. -/
private theorem postfixed_member : ∀ (member : Member) (depth : Nat) (rest : List Token),
    4 * member.tokens.length ≤ depth + 2 → begins '<' rest = false →
      postfixed depth (member.tokens ++ rest) = suffixes member.type rest
  | .plain base, depth, rest, hdepth, hrest => by
    have hpos := (Member.plain base).length_tokens_pos
    rw [Member.tokens] at hdepth hpos ⊢
    obtain ⟨depth, rfl⟩ : ∃ d, depth = d + 1 := ⟨depth - 1, by omega⟩
    rw [postfixed, primary_primary base depth rest (by omega) hrest, Member.type]
    rfl
  | .array element, depth, rest, hdepth, hrest => by
    rw [Member.tokens, List.length_append] at hdepth
    have helement := postfixed_member element depth (.mark '[' :: .mark ']' :: rest) (by omega) rfl
    rw [Member.tokens, List.append_assoc, Member.type]
    exact helement.trans (suffixes_array element.type rest)

private theorem primary_primary : ∀ (base : Primary) (depth : Nat) (rest : List Token),
    4 * base.tokens.length ≤ depth + 3 → begins '<' rest = false →
      primary depth (base.tokens ++ rest) = some (base.type, rest)
  | .name label, depth, rest, hdepth, hrest => by
    rw [Primary.tokens, List.length_singleton] at hdepth
    obtain ⟨depth, rfl⟩ : ∃ d, depth = d + 1 := ⟨depth - 1, by omega⟩
    rw [Primary.tokens, List.singleton_append, primary]
    simp only
    rw [behind?_none hrest, Primary.type]
  | .applied label arguments, depth, rest, hdepth, hrest => by
    rw [Primary.tokens, List.length_cons, List.length_cons, List.length_append] at hdepth
    obtain ⟨depth, rfl⟩ : ∃ d, depth = d + 1 := ⟨depth - 1, by omega⟩
    have harguments := list_arguments arguments depth (.mark '>' :: rest) (by omega)
      (avoids_mark rfl rest)
    rw [Primary.tokens, List.cons_append, List.cons_append, List.append_assoc, primary]
    simp only
    rw [behind?_mark]
    simp only [List.singleton_append, Option.bind_eq_bind]
    rw [harguments, Option.bind_some, behind?_mark, Option.bind_some, Primary.type]
  | .group inner, depth, rest, hdepth, hrest => by
    rw [Primary.tokens, List.length_cons, List.length_append] at hdepth
    have hpos := inner.length_tokens_pos
    obtain ⟨depth, rfl⟩ : ∃ d, depth = d + 2 := ⟨depth - 2, by omega⟩
    have hinner := union_of_list (list_members inner depth (.mark ')' :: rest) (by omega)
      (avoids_mark rfl rest))
    rw [Primary.tokens, List.cons_append, List.append_assoc, primary]
    · simp only [List.singleton_append, Option.bind_eq_bind]
      rw [behind?_mark, Option.bind_some, hinner, Option.bind_some, behind?_mark, Option.bind_some,
        Primary.type]
    · nofun

private theorem list_arguments : ∀ (arguments : Arguments) (depth : Nat) (rest : List Token),
    4 * arguments.tokens.length + 1 ≤ depth → Avoids [',', '|', '[', '<'] rest →
      list ',' depth (arguments.tokens ++ rest) = some (arguments.types, rest)
  | .single argument, depth, rest, hdepth, hrest => by
    rw [Arguments.tokens] at hdepth ⊢
    have hpos := argument.length_tokens_pos
    obtain ⟨depth, rfl⟩ : ∃ d, depth = d + 2 := ⟨depth - 2, by omega⟩
    have hargument := union_of_list (list_members argument depth rest (by omega)
      fun c hc => hrest c (List.mem_cons_of_mem _ hc))
    rw [list, if_neg (by decide), hargument]
    simp only [Option.bind_eq_bind, Option.bind_some]
    rw [behind?_none (hrest ',' (by simp)), Arguments.types]
  | .more argument more, depth, rest, hdepth, hrest => by
    rw [Arguments.tokens, List.length_append, List.length_cons] at hdepth
    have hpos := argument.length_tokens_pos
    obtain ⟨depth, rfl⟩ : ∃ d, depth = d + 2 := ⟨depth - 2, by omega⟩
    have hargument := union_of_list (list_members argument depth
      (.mark ',' :: (more.tokens ++ rest)) (by omega) (avoids_mark rfl _))
    have hmore := list_arguments more (depth + 1) rest (by omega) hrest
    rw [Arguments.tokens, List.append_assoc, List.cons_append, list, if_neg (by decide), hargument]
    simp only [Option.bind_eq_bind, Option.bind_some]
    rw [behind?_mark]
    simp only
    rw [hmore, Arguments.types]
    rfl

end

/-! ### Derivations of what is read -/

/-- Whatever a part of the grammar takes from the front of tokens has a derivation. -/
def Derives {α : Type} (part : List Token → Option (α × List Token))
    (derivation : α → List Token → Prop) : Prop :=
  ∀ {tokens a rest}, part tokens = some (a, rest) → ∃ front, tokens = front ++ rest ∧ derivation a front

private theorem behind?_eq_some {c : Char} {tokens rest : List Token}
    (h : behind? c tokens = some rest) :
    tokens = .mark c :: rest := by
  unfold behind? at h
  split at h
  · next hbegins =>
    cases h
    unfold begins at hbegins
    split at hbegins
    · rw [beq_iff_eq.mp hbegins, List.tail_cons]
    · cases hbegins
  · cases h

private theorem suffixes_derives (member : Member) :
    Derives (fun tokens => suffixes member.type tokens) fun type front =>
      ∃ longer : Member, longer.tokens = member.tokens ++ front ∧ longer.type = type := by
  intro tokens type rest h
  dsimp only at h
  generalize hmember : member.type = current at h
  fun_induction suffixes current tokens generalizing member with
  | case1 current u v tokens hu hv ih =>
    obtain rfl := beq_iff_eq.mp hu
    obtain rfl := beq_iff_eq.mp hv
    obtain ⟨front, rfl, longer, htokens, htype⟩ := ih (.array member) (by rw [Member.type, hmember]) h
    refine ⟨.mark '[' :: .mark ']' :: front, rfl, longer, ?_, htype⟩
    rw [htokens, Member.tokens, List.append_assoc]
    rfl
  | case2 => cases h
  | case3 =>
    cases h
    exact ⟨[], rfl, member, by simp, hmember⟩
  | case4 => cases h
  | case5 =>
    cases h
    exact ⟨[], rfl, member, by simp, hmember⟩

/-- All parts of the grammar at some depth. -/
private theorem grammar_derives (depth : Nat) :
    Derives (union depth) (fun type front =>
      ∃ expression : TypeExpr, expression.tokens = front ∧ expression.type = type) ∧
    Derives (list '|' depth) (fun types front =>
      ∃ expression : TypeExpr, expression.tokens = front ∧ expression.memberTypes = types) ∧
    Derives (list ',' depth) (fun types front =>
      ∃ arguments : Arguments, arguments.tokens = front ∧ arguments.types = types) ∧
    Derives (postfixed depth)
      (fun type front => ∃ member : Member, member.tokens = front ∧ member.type = type) ∧
    Derives (primary depth)
      (fun type front => ∃ base : Primary, base.tokens = front ∧ base.type = type) := by
  -- every part reads the others one level deeper, so that one induction has to carry all five
  induction depth with
  | zero =>
    refine ⟨fun h => ?_, fun h => ?_, fun h => ?_, fun h => ?_, fun h => ?_⟩ <;>
      simp [union, list, postfixed, primary] at h
  | succ depth ih =>
    obtain ⟨hunion, hmembers, harguments, hpostfixed, hprimary⟩ := ih
    refine ⟨?_, ?_, ?_, ?_, ?_⟩
    · intro tokens type rest h
      rw [union] at h
      obtain ⟨⟨types, tokens'⟩, hlist, h⟩ := Option.bind_eq_some_iff.mp h
      cases h
      obtain ⟨front, rfl, expression, htokens, htypes⟩ := hmembers hlist
      exact ⟨front, rfl, expression, htokens, by rw [TypeExpr.type, htypes]⟩
    · intro tokens types rest h
      rw [list, if_pos rfl] at h
      obtain ⟨⟨first, tokens'⟩, hfirst, h⟩ := Option.bind_eq_some_iff.mp h
      obtain ⟨front, rfl, member, rfl, rfl⟩ := hpostfixed hfirst
      dsimp only at h
      split at h
      · next behind hbehind =>
        obtain ⟨⟨more, tokens''⟩, hmore, h⟩ := Option.bind_eq_some_iff.mp h
        cases h
        obtain rfl := behind?_eq_some hbehind
        obtain ⟨front, rfl, expression, rfl, rfl⟩ := hmembers hmore
        exact ⟨member.tokens ++ .mark '|' :: expression.tokens, by simp, .union member expression,
          by rw [TypeExpr.tokens], by rw [memberTypes]⟩
      · cases h
        exact ⟨member.tokens, rfl, .single member, by rw [TypeExpr.tokens], by rw [memberTypes]⟩
    · intro tokens types rest h
      rw [list, if_neg (by decide)] at h
      obtain ⟨⟨first, tokens'⟩, hfirst, h⟩ := Option.bind_eq_some_iff.mp h
      obtain ⟨front, rfl, argument, rfl, rfl⟩ := hunion hfirst
      dsimp only at h
      split at h
      · next behind hbehind =>
        obtain ⟨⟨more, tokens''⟩, hmore, h⟩ := Option.bind_eq_some_iff.mp h
        cases h
        obtain rfl := behind?_eq_some hbehind
        obtain ⟨front, rfl, arguments, rfl, rfl⟩ := harguments hmore
        exact ⟨argument.tokens ++ .mark ',' :: arguments.tokens, by simp, .more argument arguments,
          by rw [Arguments.tokens], by rw [Arguments.types]; rfl⟩
      · cases h
        exact ⟨argument.tokens, rfl,
          .single argument, by rw [Arguments.tokens], by rw [Arguments.types]; rfl⟩
    · intro tokens type rest h
      rw [postfixed] at h
      obtain ⟨⟨first, tokens'⟩, hfirst, h⟩ := Option.bind_eq_some_iff.mp h
      obtain ⟨front, rfl, base, rfl, rfl⟩ := hprimary hfirst
      obtain ⟨more, rfl, member, hmember, rfl⟩ :=
        suffixes_derives (.plain base) (by rw [Member.type]; exact h)
      exact ⟨base.tokens ++ more, by rw [List.append_assoc], member, by rw [hmember, Member.tokens], rfl⟩
    · intro tokens type rest h
      unfold primary at h
      split at h
      · next label tokens =>
        split at h
        · next behind hbehind =>
          obtain ⟨⟨args, tokens'⟩, hargs, h⟩ := Option.bind_eq_some_iff.mp h
          obtain ⟨tokens'', hclose, h⟩ := Option.bind_eq_some_iff.mp h
          cases h
          obtain rfl := behind?_eq_some hbehind
          obtain ⟨front, rfl, arguments, rfl, rfl⟩ := harguments hargs
          rw [behind?_eq_some hclose]
          exact ⟨.name label :: .mark '<' ::
            (arguments.tokens ++ [.mark '>']), by simp, .applied label arguments,
            by rw [Primary.tokens], by rw [Primary.type]⟩
        · cases h
          exact ⟨[.name label], rfl, .name label, by rw [Primary.tokens], by rw [Primary.type]⟩
      · obtain ⟨behind, hopen, h⟩ := Option.bind_eq_some_iff.mp h
        obtain ⟨⟨inner, tokens'⟩, hinner, h⟩ := Option.bind_eq_some_iff.mp h
        obtain ⟨tokens'', hclose, h⟩ := Option.bind_eq_some_iff.mp h
        cases h
        obtain rfl := behind?_eq_some hopen
        obtain ⟨front, rfl, expression, rfl, rfl⟩ := hunion hinner
        rw [behind?_eq_some hclose]
        exact ⟨.mark '(' ::
          (expression.tokens ++ [.mark ')']), by simp, .group expression, by rw [Primary.tokens],
          by rw [Primary.type]; rfl⟩

/-- The reader accepts the tokens of a derivation, and no others, and gives the type that this
stands for. -/
theorem ofTokens?_eq_some_iff {tokens : List Token} {type : TypeRef} :
    ofTokens? tokens = some type ↔ ∃ expression : TypeExpr, expression.tokens = tokens ∧
      expression.type = type := by
  constructor
  · intro h
    unfold ofTokens? at h
    split at h
    · next hunion =>
      cases h
      obtain ⟨front, rfl, expression, rfl, htype⟩ := (grammar_derives _).1 hunion
      exact ⟨expression, (List.append_nil _).symm, htype⟩
    · cases h
  · rintro ⟨expression, rfl, rfl⟩
    have hlist := list_members expression (4 * expression.tokens.length + 3) [] (by omega)
      fun _ _ => rfl
    have hunion := union_of_list hlist
    rw [List.append_nil] at hunion
    rw [ofTokens?, hunion]
    rfl

/-! ### Reading a text -/

/-- The type of a text is the one that a derivation of its tokens stands for. -/
theorem parse_eq_ok_iff {text element : Text} {type : TypeRef} : parse text element = .ok type ↔
    ∃ expression : TypeExpr, Splits text expression.tokens ∧ expression.type = type := by
  have hread : parse text element = .ok type ↔ (tokens? [] text).bind ofTokens? = some type := by
    unfold parse
    split
    · next read hread => rw [hread, Option.some_inj, Except.ok.injEq]
    · next hnone => simp [hnone]
  rw [hread, Option.bind_eq_some_iff]
  constructor
  · rintro ⟨tokens, htokens, htype⟩
    obtain ⟨expression, rfl, rfl⟩ := ofTokens?_eq_some_iff.mp htype
    exact ⟨expression, tokens?_eq_some_iff.mp htokens, rfl⟩
  · rintro ⟨expression, hsplits, rfl⟩
    exact ⟨_, tokens?_eq_some_iff.mpr hsplits, ofTokens?_eq_some_iff.mpr ⟨expression, rfl, rfl⟩⟩

/-- A text is read exactly if it can be cut into the tokens of a derivation, each token the longest
at its place with nothing but blanks around; the type is the one that the derivation stands
for.  All other texts are refused with the whole text. -/
theorem parse_settles (text element : Text) :
    (∀ type, parse text element = .ok type ↔
      ∃ expression : TypeExpr, Splits text expression.tokens ∧ expression.type = type) ∧
    ((∀ expression : TypeExpr, ¬ Splits text expression.tokens) →
      parse text element = .error (.unsupportedType text element)) := by
  refine ⟨fun _ => parse_eq_ok_iff, fun hnone => ?_⟩
  cases hread : parse text element with
  | ok type =>
    obtain ⟨expression, hsplits, -⟩ := parse_eq_ok_iff.mp hread
    exact absurd hsplits (hnone expression)
  | error failure =>
    unfold parse at hread
    split at hread
    · cases hread
    · exact hread.symm

end TypeRef

end JsonCompanion
