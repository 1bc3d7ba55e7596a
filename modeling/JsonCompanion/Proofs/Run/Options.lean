import JsonCompanion.Proofs.Compose.Distinct
import JsonCompanion.Proofs.Config.Schema
import JsonCompanion.Run.Basic

/-!
# Accepted options of a run

`RunOptions.isValid_of_read`: options that pass the checks name each file once, and their suffix is
a part of a name.
-/

namespace JsonCompanion

namespace RunOptions

/-- What the checks guarantee. -/
structure IsValid (options : RunOptions) : Prop where
  paths_nodup : options.paths.Nodup
  suffix_ne_nil : options.suffix ≠ []
  suffix_slash : ('/' : CodeUnit) ∉ options.suffix

private theorem isValid_suffix {given accepted : Value}
    (h : Schema.check (.withDefault (.string ".g") (.text [.notEmpty, .noPathSeparator])) given =
      .ok accepted) :
    textOf accepted ≠ [] ∧ ('/' : CodeUnit) ∉ textOf accepted := by
  simp only [Schema.check, Schema.checkText] at h
  generalize (if given.isUndefined then Value.string ".g" else given) = value at h
  cases value with
  | string text =>
    rcases hrules : [TextRule.notEmpty, .noPathSeparator].findSome? (Schema.complaint? text) with
      _ | message
    · simp only [hrules, Except.ok.injEq] at h
      subst h
      have hno := List.findSome?_eq_none_iff.1 hrules
      have hempty := hno .notEmpty (by simp)
      have hseparator := hno .noPathSeparator (by simp)
      simp only [Schema.complaint?] at hempty hseparator
      refine ⟨fun heq => ?_, fun hmem => ?_⟩
      · simp only [textOf] at heq
        simp [heq] at hempty
      · simp only [textOf] at hmem
        have hany : (text.any fun u => u == ('/' : CodeUnit) || u == ('\\' : CodeUnit)) = true :=
          List.any_eq_true.2 ⟨_, hmem, by simp⟩
        simp [hany] at hseparator
    · simp [hrules] at h
  | _ => simp at h

/-- Options that pass the checks are valid. -/
theorem isValid_of_read {record : Record} {options : RunOptions} (h : read record = .ok options) :
    options.IsValid := by
  rw [read] at h
  rcases hchecked : runSchema.check
    (.object (checkedNames.map fun name => (name, Record.get record name)))
    with issue | data
  · simp [Schema.validate, Verdict.ofSchema, hchecked, Verdict.settle, bind, Except.bind] at h
  obtain ⟨accepted, rfl, hproperties⟩ := Schema.check_property (by decide) hchecked
  have hsuffix := isValid_suffix (hproperties "companionSuffix"
    (.withDefault (.string ".g") (.text [.notEmpty, .noPathSeparator])) (by simp))
  simp only [Schema.validate, Verdict.ofSchema, hchecked, Verdict.settle, bind, Except.bind] at h
  split at h
  · cases h
  obtain rfl := Except.ok.inj h
  exact ⟨distinct_nodup _, hsuffix.1, hsuffix.2⟩

end RunOptions

end JsonCompanion
