import JsonCompanion.Data.Value
import JsonCompanion.Proofs.Emit.Encoder

/-!
# Objects of running code

What writes of keys make of an object, and what the look-up of a key finds in it.

* `Held` is what a variable holds, and `StrictlyEqual` compares as `===` does.
* `Object` has properties of its own in order, and a prototype behind them; `Object.get` looks a key
  up, and `Object.write` writes it in one of four forms.
* `Object.Sets` says that a property is set and nothing else changed, `Object.sets_write` that
  writes of fields do so.
* `Object.get_run`: after writes of different keys, the look-up of one of them finds what was
  written, or else what the prototype has under that key.
-/

namespace JsonCompanion.Running

open Emit

/-! ### What variables hold -/

/-- What a variable holds.  The prototype of ordinary objects and its members are told apart,
anything else that is held by reference or is a symbol stands for itself. -/
inductive Held (Ref : Type)
  | undefined
  | null
  | bool (value : Bool)
  | number (value : Number)
  | bigint (value : Int)
  | string (value : Text)
  | prototype
  | inherited (name : Text)
  | other (isObject : Bool) (reference : Ref)

variable {Ref : Type}

namespace Held

/-- An object, be it a function. -/
def isObject : Held Ref → Bool
  | .prototype | .inherited _ => true
  | .other isObject _ => isObject
  | _ => false

/-- An object or null, which alone can be a prototype. -/
def canBeBehind : Held Ref → Bool
  | .null => true
  | held => held.isObject

/-- Equality of what is held, where no number is not a number and both zeros are the same. -/
def StrictlyEqual : Held Ref → Held Ref → Prop
  | .number n, .number m => n ≠ .nan ∧ m ≠ .nan ∧ (n = m ∨ n.isZero = true ∧ m.isZero = true)
  | first, second => first = second

/-- Not a number. -/
def IsNaN (held : Held Ref) : Prop := held = .number .nan

end Held

/-! ### Objects -/

/-- An object: its own properties in order, and its prototype. -/
structure Object (Ref : Type) where
  own : List (Text × Held Ref)
  behind : Held Ref

/-- What objects do that have another prototype than ordinary ones. -/
structure Surroundings (Ref : Type) where
  get : Object Ref → Text → Held Ref
  assign : Object Ref → Text → Held Ref → Object Ref

/-- The functions that every ordinary object inherits. -/
def inheritedNames : List Text :=
  ["constructor", "__defineGetter__", "__defineSetter__", "hasOwnProperty", "__lookupGetter__",
    "__lookupSetter__", "isPrototypeOf", "propertyIsEnumerable", "toString", "valueOf", "toLocaleString"]

/-- Every ordinary object inherits something under the key. -/
def IsInherited (key : Text) : Prop := key = prototypeKey ∨ key ∈ inheritedNames

/-- What is found under a key that an ordinary object does not have itself. -/
def inheritedMember (key : Text) : Held Ref :=
  if key = prototypeKey then .prototype else if inheritedNames.contains key then .inherited
    key else .undefined

theorem inheritedMember_eq_undefined_iff {key : Text} :
    (inheritedMember key : Held Ref) = .undefined ↔ ¬ IsInherited key := by
  unfold inheritedMember IsInherited
  by_cases hprototype : key = prototypeKey
  · simp [hprototype]
  · by_cases hname : key ∈ inheritedNames <;> simp [hprototype, hname]

namespace Object

/-- An object without properties. -/
def empty : Object Ref := ⟨[], .prototype⟩

/-- The value of a property of the object itself. -/
def own? (object : Object Ref) (key : Text) : Option (Held Ref) :=
  object.own.lookup key

/-- Puts a new property at its place. -/
def place (key : Text) (value : Held Ref) : List (Text × Held Ref) → List (Text × Held Ref)
  | [] => [(key, value)]
  | property :: rest =>
    if Record.goesBefore key property.1 then (key, value) :: property :: rest else property ::
      place key value rest

/-- Writes a property of the object itself: an existing one keeps its place. -/
def define (object : Object Ref) (key : Text) (value : Held Ref) : Object Ref :=
  { object with own :=
      if (object.own? key).isSome then
        object.own.map fun property => if property.1 = key then (key, value) else property
      else place key value object.own }

/-- Sets the prototype, unless the value cannot be one. -/
def inherit (object : Object Ref) (value : Held Ref) : Object Ref :=
  if value.canBeBehind then { object with behind := value } else object

/-- Looks a key up. -/
def get (around : Surroundings Ref) (object : Object Ref) (key : Text) : Held Ref :=
  match object.own? key, object.behind with
  | some value, _ => value
  | none, .prototype => inheritedMember key
  | none, .null => .undefined
  | none, _ => around.get object key

/-- Assigns to a key.  What ordinary objects inherit does not stand in the way, apart from the key
of the prototype. -/
def assign (around : Surroundings Ref) (object : Object Ref) (key : Text) (value : Held Ref) :
    Object Ref :=
  match object.own? key, object.behind with
  | some _, _ => object.define key value
  | none, .prototype => if key = prototypeKey then object.inherit value else object.define key value
  | none, .null => object.define key value
  | none, _ => around.assign object key value

/-- Writes a key.  As it is, the key of the prototype sets the prototype. -/
def write (around : Surroundings Ref) (object : Object Ref) (form : WriteForm) (key : Text)
    (value : Held Ref) : Object Ref :=
  match form with
  | .entry => if key = prototypeKey then object.inherit value else object.define key value
  | .computed | .defined => object.define key value
  | .assigned => object.assign around key value

end Object

/-! ### Runs -/

/-- What the code of writes evaluates to for an instance: their values, and their conditions. -/
structure Evaluation (Ref : Type) where
  value : KeyWrite → Held Ref
  holds : KeyWrite → Bool

/-- A write is made: it has no condition, or the condition holds. -/
def Evaluation.makes (evaluation : Evaluation Ref) (write : KeyWrite) : Bool :=
  write.condition.isNone || evaluation.holds write

namespace Object

/-- The object after a write, if that is made. -/
def step (around : Surroundings Ref) (evaluation : Evaluation Ref) (object : Object Ref)
    (write : KeyWrite) : Object Ref :=
  if evaluation.makes write then object.write around write.form write.key
    (evaluation.value write) else object

/-- The object after writes, one after another. -/
def run (around : Surroundings Ref) (evaluation : Evaluation Ref) (object : Object Ref)
    (writes : List KeyWrite) :
    Object Ref :=
  writes.foldl (step around evaluation) object

/-! ### What writes change -/

/-- A change of one property, and of nothing else. -/
structure Sets (key : Text) (value : Held Ref) (before after : Object Ref) : Prop where
  behind_eq : after.behind = before.behind
  own?_eq : ∀ other, after.own? other = if other = key then some value else before.own? other

variable {around : Surroundings Ref} {evaluation : Evaluation Ref} {object : Object Ref}
  {key : Text} {value : Held Ref}
variable {write : KeyWrite} {writes : List KeyWrite}

private theorem lookup_cons (property : Text × Held Ref) (rest : List (Text × Held Ref)) (other : Text) :
    (property :: rest).lookup other =
      if other = property.1 then some property.2 else rest.lookup other := by
  obtain ⟨old, content⟩ := property
  rw [List.lookup_cons]
  by_cases hother : other = old
  · rw [if_pos hother, beq_iff_eq.2 hother]
  · rw [if_neg hother, beq_false_of_ne hother]

private theorem lookup_place {properties : List (Text × Held Ref)}
    (hnew : properties.lookup key = none) (other : Text) :
    (place key value properties).lookup other = if other =
      key then some value else properties.lookup other := by
  induction properties with
  | nil => rw [place, lookup_cons]
  | cons property rest ih =>
    rw [lookup_cons] at hnew
    split at hnew
    · cases hnew
    · next hne =>
      unfold place
      split
      · rw [lookup_cons]
      · -- the key is no older one, so that it is found behind it
        rw [lookup_cons, lookup_cons, ih hnew]
        by_cases hother : other = key
        · rw [hother, if_neg hne, if_pos rfl, if_pos rfl]
        · rw [if_neg hother, if_neg hother]

private theorem lookup_replace (properties : List (Text × Held Ref)) (other : Text) :
    (properties.map fun property => if property.1 = key then (key, value) else property).lookup other =
      if other = key then (properties.lookup key).map fun _ => value else properties.lookup other := by
  induction properties with
  | nil => rw [List.map_nil, List.lookup_nil, List.lookup_nil, Option.map_none, ite_self]
  | cons property rest ih =>
    rw [List.map_cons, lookup_cons, ih, lookup_cons, lookup_cons]
    by_cases hother : other = key <;> by_cases hold : property.1 = key
    · simp [hother, hold]
    · simp [hother, hold, Ne.symm hold]
    · simp [hother, hold]
    · simp [hother, hold]

theorem sets_define (object : Object Ref) (key : Text) (value : Held Ref) :
    Sets key value object (object.define key value) := by
  refine ⟨rfl, fun other => ?_⟩
  unfold define own?
  dsimp only
  split
  · next hold =>
    obtain ⟨content, hcontent⟩ := Option.isSome_iff_exists.1 hold
    rw [lookup_replace, hcontent, Option.map_some]
  · next hnew => exact lookup_place (Option.not_isSome_iff_eq_none.1 hnew) other

/-- Where the key of the prototype is written as an ordinary one, a write sets the property of its
key. -/
theorem sets_write (around : Surroundings Ref) (hbehind : object.behind = .prototype)
    (hform : write.form = .computed ∨ write.form = .defined ↔ write.key = prototypeKey)
    (value : Held Ref) :
    Sets write.key value object (object.write around write.form write.key value) := by
  have hdefine : Sets write.key value object (object.define write.key value) :=
    sets_define object write.key value
  unfold Object.write
  cases hwrite : write.form with
  | entry =>
    have hkey : write.key ≠ prototypeKey := fun hkey => by simpa [hwrite] using hform.2 hkey
    simpa only [if_neg hkey] using hdefine
  | computed => exact hdefine
  | defined => exact hdefine
  | assigned =>
    have hkey : write.key ≠ prototypeKey := fun hkey => by simpa [hwrite] using hform.2 hkey
    unfold assign
    rw [hbehind]
    cases object.own? write.key with
    | some _ => exact hdefine
    | none => simpa only [if_neg hkey] using hdefine

/-! ### Runs -/

/-- A step of a run sets the property of a write that is made, and otherwise changes nothing. -/
private theorem own?_step (around : Surroundings Ref) (evaluation : Evaluation Ref)
    (hbehind : object.behind = .prototype)
    (hform : write.form = .computed ∨ write.form = .defined ↔ write.key = prototypeKey) :
    (object.step around evaluation write).behind = .prototype ∧
      ∀ other, (object.step around evaluation write).own? other =
        if other = write.key ∧
          evaluation.makes write = true then some (evaluation.value write) else object.own? other := by
  unfold step
  cases hmade : evaluation.makes write with
  | false => simp [hbehind]
  | true =>
    have hsets := sets_write around hbehind hform (evaluation.value write)
    simpa [hbehind] using And.intro hsets.behind_eq hsets.own?_eq

/-- After writes of different keys, an object has what was written of them, and otherwise what it had. -/
private theorem own?_run (around : Surroundings Ref) (evaluation : Evaluation Ref)
    (hbehind : object.behind = .prototype)
    (hforms : ∀ write ∈ writes, write.form = .computed ∨ write.form = .defined ↔
      write.key = prototypeKey)
    (hkeys : (writes.map KeyWrite.key).Nodup) :
    (object.run around evaluation writes).behind = .prototype ∧
      (∀ other ∉ writes.map KeyWrite.key,
        (object.run around evaluation writes).own? other = object.own? other) ∧
      ∀ write ∈ writes, (object.run around evaluation writes).own? write.key =
        if evaluation.makes write = true then some (evaluation.value write) else object.own?
          write.key := by
  induction writes generalizing object with
  | nil => simp [run, hbehind]
  | cons first writes ih =>
    rw [List.forall_mem_cons] at hforms
    rw [List.map_cons, List.nodup_cons] at hkeys
    obtain ⟨hstep, hown⟩ := own?_step around evaluation hbehind hforms.1
    obtain ⟨hrun, hothers, hwrites⟩ := ih hstep hforms.2 hkeys.2
    refine ⟨hrun, fun other hother => ?_, fun write hwrite => ?_⟩
    · rw [List.map_cons, List.mem_cons, not_or] at hother
      exact (hothers other hother.2).trans ((hown other).trans (if_neg fun h => hother.1 h.1))
    · rcases List.mem_cons.1 hwrite with rfl | hwrite
      · -- no later write has the key of this one
        refine (hothers write.key hkeys.1).trans ((hown write.key).trans ?_)
        simp
      · have hne : write.key ≠ first.key := fun heq => hkeys.1 (heq ▸ List.mem_map_of_mem hwrite)
        have hfirst : (object.step around evaluation first).own? write.key = object.own? write.key :=
          (hown write.key).trans (if_neg fun h => hne h.1)
        exact (hwrites write hwrite).trans (by rw [hfirst])

/-- After writes of different keys to an object without properties, the look-up of such a key finds
what was written, or else what every ordinary object inherits under it. -/
theorem get_run (around : Surroundings Ref) (evaluation : Evaluation Ref)
    (hforms : ∀ write ∈ writes, write.form = .computed ∨ write.form = .defined ↔
      write.key = prototypeKey)
    (hkeys : (writes.map KeyWrite.key).Nodup) (hwrite : write ∈ writes) :
    (empty.run around evaluation writes).get around write.key =
      if evaluation.makes write = true then evaluation.value write else inheritedMember write.key := by
  have hempty : (empty : Object Ref).behind = .prototype := rfl
  obtain ⟨hbehind, -, hwrites⟩ := own?_run around evaluation hempty hforms hkeys
  unfold get
  rw [hwrites write hwrite, hbehind]
  cases evaluation.makes write with
  | true => rfl
  | false => rfl

end Object

end JsonCompanion.Running
