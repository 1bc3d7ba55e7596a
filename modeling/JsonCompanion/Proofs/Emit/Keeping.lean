import JsonCompanion.Proofs.Emit.Requests

/-!
# Conversions that keep what they convert

* `Keeps` says that a converter has one result, whatever was requested before, and that this has all
  units of the expression.
* `convert_keeps`: without custom converters the conversion of every type is of that kind.
-/

namespace JsonCompanion.Emit

open Collecting

/-- A converter has one result, whatever was requested before, and this has all units of the
expression. -/
def Keeps (converter : Converter) : Prop := ∀ e, (converter e).Gives fun written => e ⊆ written

variable {direction : Direction} {type : TypeRef} {converter : Converter} {arguments : List Converter}

/-! ### Containers -/

private theorem IsContainer.keeps {container : Converter → Converter}
    (hcontainer : IsContainer container) (h : Keeps converter) : Keeps (container converter) := by
  intro e
  have hinside : (inside converter).Gives fun _ => True :=
    gives_bind (h elementName) fun _ _ => gives_pure trivial
  obtain ⟨next, hnext, hwrites⟩ := hcontainer converter e
  rw [hnext]
  refine gives_bind hinside fun body? _ => ?_
  obtain ⟨written, hwritten, hkeeps⟩ := hwrites body?
  exact hwritten ▸ gives_pure hkeeps

/-! ### Named types -/

private theorem keeps_enumeration {model : EnumModel} : Keeps (enumConverter direction model) := by
  intro e
  cases direction with
  | encode => exact gives_pure (List.Subset.refl e)
  | decode =>
    unfold enumConverter
    refine gives_bind (gives_ofAttempt fun _ _ => trivial) fun table _ => ?_
    refine gives_bind (gives_add table) fun _ _ => ?_
    exact gives_bind (gives_add enumDecode) fun _ _ => gives_pure fun u hu => by simp [hu]

private theorem keeps_parameter {usesCallbacks : Bool} {name : Text} :
    Keeps (parameterConverter direction usesCallbacks name) := by
  refine fun e => gives_pure fun u hu => ?_
  cases usesCallbacks <;> simp [hu]

private theorem argumentLambdas_gives (h : ∀ argument ∈ arguments, Keeps argument) :
    (argumentLambdas arguments).Gives fun _ => True := by
  induction arguments with
  | nil => exact gives_pure trivial
  | cons first arguments ih =>
    refine gives_bind (h first List.mem_cons_self elementName) fun body _ => ?_
    have hrest := ih fun argument hmem => h argument (List.mem_cons_of_mem first hmem)
    exact gives_bind hrest fun _ _ => gives_pure trivial

private theorem keeps_class {name : Text} (h : ∀ argument ∈ arguments, Keeps argument) :
    Keeps (classConverter direction name arguments) := by
  intro e
  refine gives_bind (argumentLambdas_gives h) fun lambdas _ => ?_
  cases direction with
  | encode => exact gives_pure fun u hu => by simp [hu]
  | decode =>
    have hkeeps : e ⊆ Text.join ", " (e :: lambdas) := (Text.isInfix_join List.mem_cons_self).subset
    exact gives_pure fun u hu => by simp [hkeeps hu]

/-! ### Any type -/

variable {conversion : Conversion} {parts : List TypeRef}

private theorem Rule.keeps (h : Rule conversion direction type parts converter)
    (hparts : ∀ part ∈ parts, Keeps (convert conversion direction part)) : Keeps converter := by
  cases h with
  | scalar _ hwrite => exact fun e => gives_pure (scalar?_keeps hwrite e)
  | array => exact (isContainer_array direction).keeps (hparts _ List.mem_cons_self)
  | set => exact (isContainer_set direction).keeps (hparts _ List.mem_cons_self)
  | record => exact (isContainer_record direction).keeps (hparts _ List.mem_cons_self)
  | map => exact (isContainer_map direction).keeps (hparts _ List.mem_cons_self)
  | enumeration => exact keeps_enumeration
  | parameter => exact keeps_parameter
  | ofClass =>
    refine keeps_class ?_
    rw [converters_eq_map]
    exact List.forall_mem_map.mpr hparts

/-- The conversion of a type has one result, and it keeps the expression. -/
theorem convert_keeps (hcustoms : conversion.customs = []) (type : TypeRef) :
    Keeps (convert conversion direction type) := by
  induction type using TypeRef.inductionOnArgs with
  | _ type ih =>
    intro e
    by_cases hform : ∃ parts, Form conversion type parts
    · obtain ⟨parts, hform⟩ := hform
      obtain ⟨converter, hrule, hconvert, -⟩ := convert_of_form hcustoms hform direction
      have hparts := fun part hmem => ih part (hform.mem_args hmem)
      rw [hconvert]
      exact gives_bind (hrule.keeps hparts e) fun written hwritten =>
        gives_pure (subset_guardNull hwritten)
    · rw [convert_of_no_form hcustoms (not_exists.mp hform)]
      exact gives_throw

end JsonCompanion.Emit
