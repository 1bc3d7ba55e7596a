import JsonCompanion.Proofs.Collecting
import JsonCompanion.Proofs.Emit.Soundness
import JsonCompanion.Proofs.Script.Expressions
import JsonCompanion.Proofs.Types.Names
import Mathlib.Data.List.Forall2

/-!
# Conversions as expressions

* `Writes` says that a converter, where it succeeds, writes what a change makes of code.
* `convert_writes`: the conversion of a type writes the `change` of that type.
* `convert_parses`: what it writes is an expression, unless a copy of an object is the body of a
  function in it.
-/

namespace JsonCompanion.Emit

open Script Change Collecting

/-- Wherever a converter succeeds, it writes what a proper change makes of the code. -/
def Writes (converter : Converter) (change : Change) : Prop :=
  ∀ input : Code, input.isChain → input.IsSpelt →
    (converter input.text).Yields fun written => written = (change.apply input).text ∧ change.IsProper

variable {conversion : Conversion} {direction : Direction} {converter : Converter}
  {element value : Change}

private theorem isSpelt_element : Code.IsSpelt (.reference elementName) := ⟨by decide, by decide⟩

/-! ### Containers -/

/-- The conversion of an element. -/
private theorem inside_yields (h : Writes converter element) : (inside converter).Yields fun body? =>
    body? = element.write?.map (fun _ => element.body.text) ∧ element.IsProper := by
  unfold inside
  refine yields_bind (h (.reference elementName) rfl isSpelt_element) fun body hbody => ?_
  obtain ⟨rfl, hproper⟩ := hbody
  refine yields_pure ⟨?_, hproper⟩
  unfold Change.body apply
  cases hwrite : element.write? with
  | none => exact if_pos (beq_self_eq_true _)
  | some write =>
    have hlonger := (hproper.changed write hwrite (.reference elementName) rfl isSpelt_element).longer
    refine if_neg fun heq => ?_
    rw [beq_iff_eq] at heq
    exact Nat.ne_of_gt hlonger (congrArg List.length heq)

/-- A container that goes on from the conversion of its element. -/
private theorem container_yields {next : Option Text → Emission Text} {change : Change} {input : Code}
    (h : Writes converter element) (hproper : element.IsProper → change.IsProper)
    (htext : next (element.write?.map fun _ => element.body.text) = pure (change.apply input).text) :
    (inside converter >>= next).Yields fun written => written = (change.apply input).text ∧
      change.IsProper := by
  refine yields_bind (inside_yields h) fun body? hbody => ?_
  rw [hbody.1, htext]
  exact yields_pure ⟨rfl, hproper hbody.2⟩

private theorem writes_array (h : Writes converter element) :
    Writes (arrayConverter direction converter) (array direction element) := by
  intro input _ _
  refine container_yields h isProper_array ?_
  unfold array
  cases element.write? <;> cases direction
  all_goals
    refine congrArg pure ?_
    simp only [elementLambda, Change.apply, plainly, globalCall, Option.getD_some, Code.text,
      Code.listText, Code.moreText, List.append_assoc, List.append_nil]
    rfl

private theorem writes_set (h : Writes converter element) :
    Writes (setConverter direction converter) (Change.set direction element) := by
  intro input _ _
  refine container_yields h isProper_set ?_
  unfold Change.set
  cases element.write? <;> cases direction
  all_goals
    refine congrArg pure ?_
    simp only [elementLambda, Change.apply, plainly, globalCall, Option.getD_some, Code.text,
      Code.listText, Code.moreText, List.append_assoc, List.append_nil]
    rfl

private theorem writes_record (h : Writes converter value) :
    Writes (recordConverter direction converter) (record direction value) := by
  intro input _ _
  refine container_yields h isProper_record ?_
  unfold record
  cases value.write? with
  | some write =>
    refine congrArg pure ?_
    simp only [entryLambda, mappedEntries, entries, Change.apply, globalCall, Option.getD_some,
      Code.text, Code.listText, Code.moreText, List.append_assoc, List.append_nil]
    rfl
  | none => cases direction <;> rfl

private theorem writes_map (h : Writes converter value) :
    Writes (mapConverter direction converter) (Change.map direction value) := by
  intro input _ _
  refine container_yields h isProper_map ?_
  unfold Change.map
  cases value.write? <;> cases direction
  all_goals
    refine congrArg pure ?_
    simp only [entryLambda, mappedEntries, entries, Change.apply, plainly, globalCall,
      Option.getD_some, Code.text, Code.listText, Code.moreText, List.append_assoc, List.append_nil]
    rfl

/-! ### Named types -/

private theorem writes_scalar {name : Text} {write : Text → Text}
    (h : Emit.scalar? direction name = some write) :
    ∃ change, Change.scalar? direction name = some change ∧ Writes (fun e => pure (write e)) change := by
  suffices hwrites : ∃ change, Change.scalar? direction name = some change ∧
      ∀ input : Code, write input.text = (change.apply input).text by
    obtain ⟨change, hchange, htext⟩ := hwrites
    exact ⟨change, hchange, fun input _ _ => yields_pure ⟨htext input, isProper_scalar hchange⟩⟩
  unfold Emit.scalar? at h
  unfold Change.scalar?
  split_ifs at h ⊢ <;> cases h
  all_goals
    refine ⟨_, rfl, fun input => ?_⟩
    cases direction <;>
      simp only [either, plainly, Change.apply, Option.getD_some, Code.text, Code.listText,
        Code.moreText, List.append_nil, List.append_assoc] <;>
      rfl

private theorem scalar?_none {name : Text} (h : Emit.scalar? direction name = none) :
    Change.scalar? direction name = none := by
  unfold Emit.scalar? at h
  unfold Change.scalar?
  split_ifs at h ⊢
  rfl

private theorem writes_enumeration {model : EnumModel} (hname : model.name.isPlainIdentifier) :
    Writes (enumConverter direction model) (enumeration direction model.name) := by
  intro input _ _
  have hproper : (enumeration direction model.name).IsProper := isProper_enumeration hname
  cases direction with
  | encode => exact yields_pure ⟨rfl, hproper⟩
  | decode =>
    unfold enumConverter
    refine yields_bind (yields_true _) fun _ _ => yields_bind (yields_true _) fun _ _ =>
      yields_bind (yields_true _)
      fun _ _ => yields_pure ⟨?_, hproper⟩
    simp only [enumeration, either, plainly, Change.apply, Option.getD_some, Code.text,
      Code.listText, Code.moreText, List.append_assoc, List.append_nil]

private theorem writes_parameter {name : Text} {usesCallbacks : Bool} (hname : name.isDotted) :
    Writes (parameterConverter direction usesCallbacks name)
      (parameter direction usesCallbacks name) := by
  intro input _ _
  refine yields_pure ⟨?_, isProper_parameter hname⟩
  cases usesCallbacks with
  | false => rfl
  | true =>
    simp only [parameter, plainly, if_true, Change.apply, Option.getD_some, Code.text,
      Code.text_ofDotted, Code.listText, Code.moreText, List.append_nil]

/-- Arguments are written with commas between them. -/
private theorem join_texts :
    ∀ codes : List Code, Text.join ", " (codes.map Code.text) = Code.listText codes
  | [] => rfl
  | [code] => (List.append_nil _).symm
  | code :: next :: codes => by
    have ih := join_texts (next :: codes)
    rw [List.map_cons, List.map_cons, Text.join, ← List.map_cons, ih, Code.listText, Code.listText,
      Code.moreText]
    simp only [List.append_assoc]

/-- The functions that convert the arguments of a type. -/
private theorem argumentLambdas_yields : ∀ {converters : List Converter} {changes : List Change},
    List.Forall₂ Writes converters changes → (argumentLambdas converters).Yields fun written =>
      written = (lambdas changes).map Code.text ∧ ∀ change ∈ changes, change.IsProper
  | _, _, .nil => yields_pure ⟨rfl, fun _ hmem => absurd hmem List.not_mem_nil⟩
  | _, _, .cons h hrest => by
    refine yields_bind (h (.reference elementName) rfl isSpelt_element) fun body hbody => ?_
    refine yields_bind (argumentLambdas_yields hrest) fun written hwritten => yields_pure ?_
    rw [hbody.1, hwritten.1]
    exact ⟨rfl, List.forall_mem_cons.mpr ⟨hbody.2, hwritten.2⟩⟩

private theorem writes_class {name : Text} {converters : List Converter} {changes : List Change}
    (hname : name.isDotted) (hcapital : name.beginsCapital)
    (h : List.Forall₂ Writes converters changes) :
    Writes (classConverter direction name converters) (ofClass direction name changes) := by
  intro input _ _
  refine yields_bind (argumentLambdas_yields h) fun written hwritten => ?_
  have hproper : (ofClass direction name changes).IsProper := isProper_ofClass hname hcapital hwritten.2
  cases direction with
  | decode =>
    refine yields_pure ⟨?_, hproper⟩
    rw [hwritten.1, ← List.map_cons, join_texts]
    simp only [ofClass, Change.apply, Option.getD_some, Code.text, Code.text_ofDotted, List.append_assoc]
    rfl
  | encode =>
    refine yields_pure ⟨?_, hproper⟩
    rw [hwritten.1, join_texts]
    simp only [ofClass, Change.apply, Option.getD_some, Code.text, List.append_assoc]
    rfl

/-! ### Any type -/

private theorem only?_related {converters : List Converter} {changes : List Change}
    (h : List.Forall₂ Writes converters changes) : (only? converters = none ∧ only? changes = none) ∨
      ∃ converter change, only? converters = some converter ∧ only? changes = some change ∧
        Writes converter change := by
  cases h with
  | nil => exact .inl ⟨rfl, rfl⟩
  | cons h hrest =>
    cases hrest with
    | nil => exact .inr ⟨_, _, rfl, rfl, h⟩
    | cons => exact .inl ⟨rfl, rfl⟩

private theorem belowText?_related {converters : List Converter} {changes : List Change}
    (args : List TypeRef) (h : List.Forall₂ Writes converters changes) :
    (belowText? args converters = none ∧ belowText? args changes = none) ∨
      ∃ converter change, belowText? args converters = some converter ∧
        belowText? args changes = some change ∧ Writes converter change := by
  rcases h with _ | ⟨_, _ | ⟨hsecond, _ | _⟩⟩ <;> rcases args with _ | ⟨key, _ | ⟨_, _ | _⟩⟩
  case cons.cons.nil.cons.cons.nil =>
    cases hkey : isPlainType key "string" && !key.nullable
    · exact .inl ⟨by rw [belowText?, hkey]; rfl, by rw [belowText?, hkey]; rfl⟩
    · exact .inr ⟨_, _, by rw [belowText?, hkey]; rfl, by rw [belowText?, hkey]; rfl, hsecond⟩
  all_goals exact .inl ⟨rfl, rfl⟩

variable {type : TypeRef} {converters : List Converter} {changes : List Change}

private theorem writes_named (htype : TypeRef.isTypeName type.name type.args)
    (hargs : List.Forall₂ Writes converters changes)
    (h : namedConverter? conversion direction type converters = some converter) :
    Writes converter (named conversion direction type changes) := by
  have hdotted (hempty : type.args.isEmpty = true) : type.name.isDotted :=
    htype.resolve_right fun hunion => hunion.2 (List.isEmpty_iff.mp hempty)
  unfold namedConverter? at h
  unfold named
  simp only at h ⊢
  -- both sides ask for an enumeration first, then for a parameter, then for a class
  generalize hmodel : (if type.args.isEmpty = true then
    conversion.enums.reverse.find? fun model => model.name == type.name else none) = model? at h ⊢
  cases model? with
  | some model =>
    cases h
    obtain ⟨hempty, hfind⟩ := Option.ite_none_right_eq_some.mp hmodel
    have hname : model.name = type.name := by simpa using List.find?_some hfind
    exact writes_enumeration
      (Text.isPlainIdentifier_of_dotted (hname ▸ hdotted hempty) model.isIdentifier_name)
  | none =>
    simp only at h ⊢
    split at h
    · next hparameter =>
      cases h
      rw [if_pos hparameter]
      exact writes_parameter (hdotted (Bool.and_eq_true_iff.mp hparameter).1)
    · next hparameter =>
      obtain ⟨hname, hclass⟩ := Option.ite_none_right_eq_some.mp h
      cases hclass
      rw [if_neg hparameter]
      simp only [isConvertibleName, Bool.and_eq_true] at hname
      exact writes_class hname.2 (Text.beginsCapital_of_head hname.1.2) hargs

private theorem writes_keyed (htype : TypeRef.isTypeName type.name type.args)
    (hargs : List.Forall₂ Writes converters changes)
    (h : keyedConverter? conversion direction type converters = some converter) :
    Writes converter (keyed conversion direction type changes) := by
  have hnamed (h : namedConverter? conversion direction type converters = some converter) :=
    writes_named htype hargs h
  unfold keyedConverter? at h
  unfold keyed
  rcases belowText?_related type.args hargs with
    ⟨hfrom, hto⟩ | ⟨value, change, hfrom, hto, hvalue⟩ <;> rw [hfrom] at h <;>
    rw [hto]
  · exact hnamed h
  · generalize isOneOf type.name ["Record"] = isRecord,
      isOneOf type.name ["Map", "ReadonlyMap"] = isMap at h ⊢
    cases isRecord with
    | true =>
      cases h
      exact writes_record hvalue
    | false =>
      cases isMap with
      | true =>
        cases h
        exact writes_map hvalue
      | false => exact hnamed h

private theorem writes_builtIn (htype : TypeRef.isTypeName type.name type.args)
    (hargs : List.Forall₂ Writes converters changes)
    (h : builtIn? conversion direction type converters = some converter) :
    Writes converter (builtIn conversion direction type changes) := by
  have hkeyed (h : keyedConverter? conversion direction type converters = some converter) :=
    writes_keyed htype hargs h
  unfold builtIn? at h
  unfold builtIn
  generalize hscalar :
    (if type.args.isEmpty = true then Emit.scalar? direction type.name else none) = scalar at h
  cases scalar with
  | some write =>
    cases h
    obtain ⟨hempty, hwrite⟩ := Option.ite_none_right_eq_some.mp hscalar
    obtain ⟨change, hchange, hwrites⟩ := writes_scalar hwrite
    rw [if_pos hempty, hchange]
    exact hwrites
  | none =>
    -- what is no scalar on the one side is none on the other
    have hnone : (if type.args.isEmpty = true then Change.scalar? direction type.name else none) =
        none := by
      split
      · next hempty => exact scalar?_none (by rwa [if_pos hempty] at hscalar)
      · rfl
    rw [hnone]
    rcases only?_related hargs with ⟨hfrom, hto⟩ | ⟨element, change, hfrom, hto, helement⟩ <;>
      rw [hfrom] at h <;> rw [hto]
    · exact hkeyed h
    · generalize isOneOf type.name ["Array", "ReadonlyArray"] = isArray,
        isOneOf type.name ["Set", "ReadonlySet"] = isSet at h ⊢
      cases isArray with
      | true =>
        cases h
        exact writes_array helement
      | false =>
        cases isSet with
        | true =>
          cases h
          exact writes_set helement
        | false => exact hkeyed h

private theorem writes_guarded {nullable : Bool} (h : Writes converter value) :
    Writes (fun e => do return guardNull nullable e (← converter e)) (guarded nullable value) := by
  intro input hchain hspelt
  refine yields_bind (h input hchain hspelt) fun written hwritten => ?_
  obtain ⟨rfl, hproper⟩ := hwritten
  refine yields_pure ⟨?_, isProper_guarded hproper⟩
  cases nullable with
  | false => rfl
  | true =>
    unfold guarded Change.apply
    cases hwrite : value.write? with
    | none =>
      rw [hwrite]
      exact if_pos (beq_self_eq_true _)
    | some write =>
      have hlonger := (hproper.changed write hwrite input hchain hspelt).longer
      have hne : ((write input).text == input.text) = false :=
        beq_false_of_ne fun heq => Nat.ne_of_gt hlonger (congrArg List.length heq)
      simp only [Option.getD_some, guardNull, hne, Bool.not_true, Bool.or_self, Bool.false_eq_true,
        if_false, Code.text]

mutual

/-- The conversion of a type writes the change of that type. -/
theorem convert_writes (hcustoms : conversion.customs = []) :
    ∀ type : TypeRef, type.IsNamed →
      Writes (convert conversion direction type) (change conversion direction type)
  | ⟨name, args, nullable, text⟩, htype => by
    have hargs := converters_write hcustoms args htype.2
    intro input hchain hspelt
    rw [convert, change]
    refine writes_guarded (fun input hchain hspelt => ?_) input hchain hspelt
    simp only [plainConverter, hcustoms, custom?, pure_bind, builtInConverter]
    split
    · next converter hconverter => exact writes_builtIn htype.1 hargs hconverter input hchain hspelt
    · exact yields_throw

theorem converters_write (hcustoms : conversion.customs = []) :
    ∀ types : List TypeRef, TypeRef.AreNamed types →
      List.Forall₂ Writes (Emit.converters conversion direction types)
        (Emit.changes conversion direction types)
  | [], _ => .nil
  | type :: types, htypes =>
      .cons (convert_writes hcustoms type htypes.1) (converters_write hcustoms types htypes.2)

end

/-! ### Expressions -/

/-- A proper change makes sound code of sound code, unless it breaks it. -/
private theorem isSound_apply (h : value.IsProper) {input : Code} (hchain : input.isChain)
    (hspelt : input.IsSpelt) (hsound : input.isSound) :
    (value.apply input).IsSpelt ∧ (value.apply input).isSound = !value.breaks := by
  unfold Change.apply
  cases hwrite : value.write? with
  | none =>
    obtain ⟨-, hbreaks⟩ := h.unchanged hwrite
    exact ⟨hspelt, by rw [hbreaks]; exact hsound⟩
  | some write =>
    have hproper := h.changed write hwrite input hchain hspelt
    exact ⟨hproper.spelt, by rw [Option.getD_some, hproper.sound, hsound, Bool.true_and]⟩

/-- What the conversion of a declared type writes is one expression, namely what the change of the
type makes of the input, unless a copy of an object is the body of a function in it. -/
theorem convert_parses {text name : Text} {type : TypeRef} {input : Code}
    (hcustoms : conversion.customs = []) (htype : TypeRef.parse text name = .ok type)
    (hchain : input.isChain) (hspelt : input.IsSpelt) (hsound : input.isSound) :
    (convert conversion direction type input.text).Yields fun written => Expr.parseWhole? written =
      if (change conversion direction type).breaks then none
      else some ((change conversion direction type).apply input).expr := by
  have hwrites : Writes (convert conversion direction type) (change conversion direction type) :=
    convert_writes hcustoms type (TypeRef.parse_isNamed htype)
  refine (hwrites input hchain hspelt).imp fun written hwritten => ?_
  obtain ⟨rfl, hproper⟩ := hwritten
  obtain ⟨houtput, hgood⟩ := isSound_apply hproper hchain hspelt hsound
  rw [Code.parseWhole?_text houtput, hgood]
  cases (change conversion direction type).breaks <;> rfl

/-- A list of records that are merely copied. -/
def listOfRecords : TypeRef :=
  ⟨"Array", [⟨"Record", [.plain "string", .plain "unknown"], false, "Record<string, unknown>"⟩], false,
    "Array<Record<string, unknown>>"⟩

private def tokensOfRecords : List TypeRef.Token :=
  [.name "Array", .mark '<', .name "Record", .mark '<', .name "string", .mark ',', .name "unknown",
    .mark '>', .mark '>']

private theorem union_records (depth : Nat) :
    TypeRef.union (depth + 16) tokensOfRecords = some (listOfRecords, []) := rfl

private theorem parse_records :
    TypeRef.parse "Array<Record<string, unknown>>" "field" = .ok listOfRecords := by
  have htokens : TypeRef.tokens? [] "Array<Record<string, unknown>>" = some tokensOfRecords := rfl
  have htype : TypeRef.ofTokens? tokensOfRecords = some listOfRecords := by
    rw [TypeRef.ofTokens?, show 4 * tokensOfRecords.length + 4 = 24 + 16 from rfl, union_records]
  rw [TypeRef.parse, htokens, Option.bind_some, htype]

/-- The conversion of a list of records is no expression: the copy of each one would be a block. -/
theorem convert_parses_records :
    let conversion : Conversion := ⟨⟨"field", [], false, []⟩, []⟩
    let written : Text := "v.map((e) => \x7b ...e \x7d)"
    TypeRef.parse "Array<Record<string, unknown>>" "field" = .ok listOfRecords ∧
      (convert conversion .decode listOfRecords "v").outcome [] = (.ok written, []) ∧
      Expr.parseWhole? written = none := by
  intro conversion written
  have houtcome : (convert conversion .decode listOfRecords "v").outcome [] = (.ok written, []) := rfl
  have hparses : (convert conversion .decode listOfRecords (Code.reference "v").text).Yields
      fun written =>
      Expr.parseWhole? written = none :=
    convert_parses rfl parse_records rfl ⟨by decide, by decide⟩ rfl
  exact ⟨parse_records, houtcome, hparses [] written [] houtcome⟩

end JsonCompanion.Emit
