import JsonCompanion.Proofs.Emit.Supported
import JsonCompanion.Proofs.Script.Paths

/-!
# Conversions that rewrite an expression

* `Rewritten` says what a conversion writes that changes something: a text that is not the
  expression and does not begin with a guard against null.
* `Renders` says what a converter writes, given what is written of the elements inside; there is a
  lemma for each kind of container, for enumerations, for callbacks and for classes.
-/

namespace JsonCompanion.Emit

open Collecting

/-- The guard against null in front of a conversion. -/
def nullGuard (e : Text) : Text := e ++ " == null ? null : "

/-- What a conversion writes that changes something: there is a point behind the expression, or
something without `=` in front of it. -/
def Rewritten (e written : Text) : Prop :=
  (∃ more, written = e ++ CodeUnit.ofChar '.' :: more) ∨
    ∃ front more, written = front ++ e ++ more ∧ 2 ≤ front.length ∧ CodeUnit.ofChar '=' ∉ front

variable {conversion : Conversion} {direction : Direction} {converter : Converter} {e written : Text}

/-! ### Rewritten expressions -/

theorem Rewritten.ne (h : Rewritten e written) : written ≠ e := by
  intro heq
  have hlength : written.length = e.length := congrArg List.length heq
  rcases h with ⟨more, rfl⟩ | ⟨front, more, rfl, hfront, -⟩
  · rw [List.length_append, List.length_cons] at hlength
    omega
  · rw [List.length_append, List.length_append] at hlength
    omega

/-- A guard has an `=` too early. -/
theorem Rewritten.not_guarded (h : Rewritten e written) : ¬ nullGuard e <+: written := by
  rintro ⟨rest, hrest⟩
  rcases h with ⟨more, rfl⟩ | ⟨front, more, rfl, hfront, hequals⟩
  · rw [nullGuard, List.append_assoc, List.append_cancel_left_eq] at hrest
    exact absurd (List.cons.inj hrest).1 (by decide)
  · -- the guard has one `=` more than the expression in the two units behind it, the other text has not
    have hguard : (e ++ (" =" : Text)) <+: front ++ e := by
      have hguarded : (e ++ (" =" : Text)) <+: front ++ e ++ more := by
        refine ⟨("= null ? null : " : Text) ++ rest, ?_⟩
        rw [← hrest, nullGuard, List.append_assoc, List.append_assoc]
        rfl
      refine List.prefix_of_prefix_length_le hguarded (List.prefix_append _ _) ?_
      rw [List.length_append, List.length_append, Nat.add_comm front.length]
      exact Nat.add_le_add_left hfront _
    have hcount := hguard.sublist.count_le (CodeUnit.ofChar '=')
    have hnone : front.count (CodeUnit.ofChar '=') = 0 := List.count_eq_zero.mpr hequals
    have hone : (" =" : Text).count (CodeUnit.ofChar '=') = 1 := by decide
    rw [List.count_append, List.count_append, hnone, hone] at hcount
    omega

/-- A text between others. -/
theorem rewritten_around (front more : Text) (hwritten : written = front ++ e ++ more)
    (hfront : 2 ≤ front.length) (hequals : CodeUnit.ofChar '=' ∉ front) : Rewritten e written :=
  .inr ⟨front, more, hwritten, hfront, hequals⟩

private theorem equals_not_mem_plain {t : Text} (h : t.isPlainIdentifier) :
    CodeUnit.ofChar '=' ∉ t := fun hmem =>
  absurd (List.all_eq_true.mp (Text.all_continues h) _ hmem) (by decide)

private theorem equals_not_mem_dotted {t : Text} (h : t.isDotted) : CodeUnit.ofChar '=' ∉ t := by
  intro hmem
  rcases Text.continues_of_dotted h hmem with hcontinues | heq
  · exact absurd hcontinues (by decide)
  · exact absurd heq (by decide)

private theorem equals_not_mem_lowerFirst {t : Text} (h : t.isDotted) :
    CodeUnit.ofChar '=' ∉ t.lowerFirst := by
  have hdotted := equals_not_mem_dotted h
  obtain ⟨u, us, rfl, hbegins⟩ := Text.begins_of_dotted h
  have hfirst : Text.isPlainIdentifier [u] := Bool.and_eq_true_iff.mpr ⟨hbegins, rfl⟩
  have hsmall := equals_not_mem_plain (Text.isPlainIdentifier_lowerFirst hfirst)
  rw [Text.lowerFirst, List.append_nil] at hsmall
  rw [Text.lowerFirst, List.mem_append, not_or]
  exact ⟨hsmall, fun hmem => hdotted (List.mem_cons_of_mem _ hmem)⟩

theorem guardNull_eq_self_iff {nullable : Bool} {body : Text} :
    guardNull nullable e body = e ↔ body = e := by
  unfold guardNull
  split
  · rfl
  · next hguarded =>
    rw [Bool.or_eq_true, not_or, beq_iff_eq] at hguarded
    refine iff_of_false (fun heq => ?_) hguarded.2
    have hlength := congrArg List.length heq
    simp only [List.length_append] at hlength
    have hguard : 0 < (" == null ? null : " : Text).length := by decide
    omega

/-! ### What a converter writes -/

/-- What is written of an expression, given what is written of the elements inside: the expression
itself or something rewritten, and a text that holds what is written inside, unless that changes
nothing. -/
structure Renders (passes : Prop) (bodies : List Text) (e written : Text) : Prop where
  itself : passes → written = e
  rewritten : ¬ passes → Rewritten e written
  holds : ∀ body ∈ bodies, body = elementName ∨ body <:+: written

theorem renders_of_or {passes : Prop} {bodies : List Text}
    (h : passes ∧ written = e ∨ ¬ passes ∧ Rewritten e written)
    (hholds : ∀ body ∈ bodies, body = elementName ∨ body <:+: written) :
    Renders passes bodies e written where
  itself hpasses := (h.resolve_right fun hnot => hnot.1 hpasses).2
  rewritten hnot := (h.resolve_left fun hpasses => hnot hpasses.1).2
  holds := hholds

/-- A converter that goes through no others. -/
theorem renders_plain {passes : Prop} (h : passes ∧ written = e ∨ ¬ passes ∧ Rewritten e written) :
    Renders passes [] e written :=
  renders_of_or h (List.forall_mem_nil _)

theorem Renders.eq_self_iff {passes : Prop} {bodies : List Text} (h : Renders passes bodies e written) :
    written = e ↔ passes := by
  refine ⟨fun hsame => ?_, h.itself⟩
  exact Classical.byContradiction fun hnot => (h.rewritten hnot).ne hsame

/-! ### Containers -/

/-- A container goes on in one of two ways, depending on whether its elements are written as they are. -/
private theorem container_renders {next : Option Text → Emission Text} {passes : Prop} {body : Text}
    (hbody : (converter elementName).HasResult (.ok body))
    (hsame : body = elementName → ∃ written, next none = pure written ∧ (passes ∧ written = e ∨
      ¬ passes ∧ Rewritten e written))
    (hother : body ≠ elementName → ¬ passes ∧ ∃ written, next (some body) = pure written ∧
      Rewritten e written ∧ body <:+: written) :
    ∃ written, (inside converter >>= next).HasResult (.ok written) ∧
      Renders passes [body] e written := by
  have hinside := inside_hasResult hbody
  by_cases helement : body = elementName
  · obtain ⟨written, hwritten, hpasses⟩ := hsame helement
    rw [if_pos (beq_iff_eq.mpr helement)] at hinside
    refine ⟨written, hasResult_bind hinside (hwritten ▸ hasResult_pure written),
      renders_of_or hpasses ?_⟩
    exact List.forall_mem_singleton.mpr (.inl helement)
  · obtain ⟨hpasses, written, hwritten, hrewritten, hholds⟩ := hother helement
    rw [if_neg (by simpa using helement)] at hinside
    refine ⟨written, hasResult_bind hinside (hwritten ▸ hasResult_pure written), ?_⟩
    exact renders_of_or (.inr ⟨hpasses, hrewritten⟩) (List.forall_mem_singleton.mpr (.inr hholds))

theorem array_renders {passes : Prop} {body : Text}
    (hbody : (converter elementName).HasResult (.ok body))
    (hpasses : passes ↔ direction = .encode ∧ body = elementName) (e : Text) :
    ∃ written, (arrayConverter direction converter e).HasResult (.ok written) ∧
      Renders passes [body] e written := by
  refine container_renders hbody (fun hsame => ?_) fun hother => ⟨fun h => hother (hpasses.mp h).2, ?_⟩
  · cases direction with
    | decode =>
      exact ⟨_, rfl, .inr ⟨fun h => (nomatch (hpasses.mp h).1),
        rewritten_around "Array.from(" ")" rfl (by decide) (by decide)⟩⟩
    | encode => exact ⟨_, rfl, .inl ⟨hpasses.mpr ⟨rfl, hsame⟩, rfl⟩⟩
  · refine ⟨e ++ ".map(" ++ elementLambda body ++ ")", by cases direction <;> rfl, .inl ⟨?_, ?_⟩,
      ⟨e ++ ".map(" ++ "(e) => ", ")", ?_⟩⟩
    · exact "map(" ++ elementLambda body ++ ")"
    · simp only [List.append_assoc]
      rfl
    · simp only [elementLambda, List.append_assoc]

theorem set_renders {passes : Prop} {body : Text} (hbody : (converter elementName).HasResult (.ok body))
    (hpasses : ¬ passes) (e : Text) :
    ∃ written, (setConverter direction converter e).HasResult (.ok written) ∧
      Renders passes [body] e written := by
  refine container_renders hbody (fun _ => ?_) fun _ => ⟨hpasses, ?_⟩
  · cases direction with
    | decode =>
      exact ⟨_, rfl,
        .inr ⟨hpasses, rewritten_around "new Set(" ")" rfl (by decide) (by decide)⟩⟩
    | encode =>
      exact ⟨_, rfl,
        .inr ⟨hpasses, rewritten_around "Array.from(" ")" rfl (by decide) (by decide)⟩⟩
  · cases direction with
    | decode =>
      refine ⟨_, rfl,
        rewritten_around "new Set(" (".map(" ++ elementLambda body ++ "))") ?_ (by decide) (by decide),
        ⟨"new Set(" ++ e ++ ".map(" ++ "(e) => ", "))", ?_⟩⟩
      · simp only [List.append_assoc]
      · simp only [elementLambda, List.append_assoc]
    | encode =>
      refine ⟨_, rfl,
        rewritten_around "Array.from(" (", " ++ elementLambda body ++ ")") ?_ (by decide) (by decide),
        ⟨"Array.from(" ++ e ++ ", " ++ "(e) => ", ")", ?_⟩⟩
      · simp only [List.append_assoc]
      · simp only [elementLambda, List.append_assoc]

theorem record_renders {passes : Prop} {body : Text}
    (hbody : (converter elementName).HasResult (.ok body))
    (hpasses : passes ↔ direction = .encode ∧ body = elementName) (e : Text) :
    ∃ written, (recordConverter direction converter e).HasResult (.ok written) ∧
      Renders passes [body] e written := by
  refine container_renders hbody (fun hsame => ?_) fun hother => ⟨fun h => hother (hpasses.mp h).2, ?_⟩
  · cases direction with
    | decode => exact ⟨_, rfl, .inr ⟨fun h => (nomatch (hpasses.mp h).1),
        rewritten_around "\x7b ..." " \x7d" rfl (by decide) (by decide)⟩⟩
    | encode => exact ⟨_, rfl, .inl ⟨hpasses.mpr ⟨rfl, hsame⟩, rfl⟩⟩
  · refine ⟨"Object.fromEntries(" ++ mappedEntries e body ++ ")", by cases direction <;> rfl,
      rewritten_around ("Object.fromEntries(" ++ "Object.entries(")
      (").map(" ++ entryLambda body ++ ")" ++ ")") ?_
        (by decide) (by decide),
      ⟨"Object.fromEntries(" ++ "Object.entries(" ++ e ++ ").map(" ++ "([k, e]) => [k, ",
        "]" ++ ")" ++ ")", ?_⟩⟩
    · simp only [mappedEntries, List.append_assoc]
    · simp only [mappedEntries, entryLambda, List.append_assoc]

theorem map_renders {passes : Prop} {body : Text} (hbody : (converter elementName).HasResult (.ok body))
    (hpasses : ¬ passes) (e : Text) :
    ∃ written, (mapConverter direction converter e).HasResult (.ok written) ∧
      Renders passes [body] e written := by
  refine container_renders hbody (fun _ => ?_) fun _ => ⟨hpasses, ?_⟩
  · cases direction with
    | decode =>
      exact ⟨_, rfl,
        .inr ⟨hpasses, rewritten_around "new Map(Object.entries(" "))" rfl (by decide) (by decide)⟩⟩
    | encode =>
      exact ⟨_, rfl,
        .inr ⟨hpasses, rewritten_around "Object.fromEntries(" ")" rfl (by decide) (by decide)⟩⟩
  · cases direction with
    | decode =>
      refine ⟨_, rfl, rewritten_around ("new Map(" ++ "Object.entries(")
        (").map(" ++ entryLambda body ++ ")" ++ ")") ?_ (by decide) (by decide),
        ⟨"new Map(" ++ "Object.entries(" ++ e ++ ").map(" ++ "([k, e]) => [k, ", "]" ++ ")" ++ ")", ?_⟩⟩
      · simp only [mappedEntries, List.append_assoc]
      · simp only [mappedEntries, entryLambda, List.append_assoc]
    | encode =>
      refine ⟨_, rfl,
        rewritten_around "Object.fromEntries(Array.from(" (", " ++ entryLambda body ++ "))") ?_
        (by decide) (by decide),
        ⟨"Object.fromEntries(Array.from(" ++ e ++ ", " ++ "([k, e]) => [k, ", "]" ++ "))", ?_⟩⟩
      · simp only [List.append_assoc]
      · simp only [entryLambda, List.append_assoc]

/-! ### Named types -/

theorem enumeration_rewritten {name : Text} (hname : name.isDotted) (e : Text) : Rewritten e
    (enumDecodeName ++ "(" ++ enumValuesName name ++ ", " ++ e ++ ", " ++ name.quote ++ ")") := by
  refine rewritten_around (enumDecodeName ++ "(" ++ enumValuesName name ++ ", ")
    (", " ++ name.quote ++ ")") ?_ ?_ ?_
  · simp only [List.append_assoc]
  · have hlong : 2 ≤ enumDecodeName.length := by decide
    simp only [List.length_append]
    omega
  · simp only [enumValuesName, List.mem_append, not_or]
    exact ⟨⟨⟨by decide, by decide⟩, equals_not_mem_lowerFirst hname, by decide⟩, by decide⟩

theorem callback_rewritten {name : Text} (hname : name.isDotted) (e : Text) :
    Rewritten e (callbackName direction name ++ "(" ++ e ++ ")") := by
  have hequals := equals_not_mem_dotted hname
  refine rewritten_around (callbackName direction name ++ "(") ")" rfl ?_ ?_
  · have hlong : 2 ≤ ("fromJson" : Text).length ∧ 2 ≤ ("toJson" : Text).length := by decide
    cases direction <;> simp only [callbackName, List.length_append] <;> omega
  · cases direction <;> simp only [callbackName, List.mem_append, not_or] <;>
      exact ⟨⟨by decide, hequals⟩, by decide⟩

theorem class_renders {name : Text} {types : List TypeRef} {bodies : List Text} {passes : Prop}
    (hname : name.isDotted) (hpasses : ¬ passes)
    (hbodies : List.Forall₂
      (fun type body => (convert conversion direction type elementName).HasResult (.ok body))
        types bodies) (e : Text) :
    ∃ written, (classConverter direction name (converters conversion direction types) e).HasResult
      (.ok written) ∧ Renders passes bodies e written := by
  have hlambdas := argumentLambdas_hasResult hbodies
  have hlambda (body : Text) (hmem : body ∈ bodies) :
      body <:+: Text.join ", " (bodies.map elementLambda) := by
    have hsuffix : body <:+ elementLambda body := ⟨"(e) => ", rfl⟩
    exact hsuffix.isInfix.trans (Text.isInfix_join (List.mem_map_of_mem hmem))
  cases direction with
  | decode =>
    refine ⟨_, hasResult_bind hlambdas (hasResult_pure _),
      renders_of_or (.inr ⟨hpasses, ?_⟩) fun body hmem => .inr ?_⟩
    · have hfirst : e <+: Text.join ", " (e :: bodies.map elementLambda) := Text.isPrefix_join
      -- the expression is the first argument of the call
      obtain ⟨more, hmore⟩ := hfirst
      refine rewritten_around (name ++ ".fromJson(") (more ++ ")") ?_ ?_ ?_
      · rw [← hmore]
        simp only [List.append_assoc]
      · have hlong : 2 ≤ (".fromJson(" : Text).length := by decide
        rw [List.length_append]
        omega
      · rw [List.mem_append, not_or]
        exact ⟨equals_not_mem_dotted hname, by decide⟩
    · have hne : bodies.map elementLambda ≠ [] := by
        rw [Ne, List.map_eq_nil_iff]
        exact List.ne_nil_of_mem hmem
      rw [Text.join_cons hne]
      exact (hlambda body hmem).trans
        ⟨name ++ ".fromJson(" ++ (e ++ ", "), ")", by simp only [List.append_assoc]⟩
  | encode =>
    refine ⟨_, hasResult_bind hlambdas (hasResult_pure _),
      renders_of_or (.inr ⟨hpasses, ?_⟩) fun body hmem => .inr ?_⟩
    · refine .inl ⟨"toJson(" ++ Text.join ", " (bodies.map elementLambda) ++ ")", ?_⟩
      simp only [List.append_assoc]
      rfl
    · exact (hlambda body hmem).trans ⟨e ++ ".toJson(", ")", rfl⟩

end JsonCompanion.Emit
