import JsonCompanion.Script.Function

/-!
# Lists and objects

A list or an object may turn out to be a pattern, so its parts are parsed as both at once.

* `arrayRule` and `objectRule` parse the two and leave behind their shape.
* `propertyKey` parses the name of a property or a member, `propertyValue` the value of a property.
-/

namespace JsonCompanion.Script

/-! ### Values -/

/-- Ends a list or an object, or assigns a value to it. -/
def endCollection (self : Rules) (ctx : Context) (reading : Reading) (start : Nat) (shape : Shape)
    (expr : Expr) : Parser Operand := do
  if reading.takesValue && (← peek).assigns then
    expect ctx.operand "="
    require (!shape.noPattern && (reading.isPattern || expr.assignsPlainly))
    let value ← self.assignment ctx
    setShape ({ shape with onlyPattern := false, repeatsPrototype := false }.join
      (← lastShape).operators)
    return ⟨.assign true expr value.expr, ← spanFrom start⟩
  else
    setShape shape
    return ⟨expr, ← spanFrom start⟩

/-- Continues a list or an object that is a part of another one with suffixes. -/
def innerSuffixes (self : Rules) (ctx : Context) (start : Nat) (inner : Operand) :
    Parser Operand := do
  require (!(← lastShape).onlyPattern)
  suffixes self ctx start inner

/-- A list or an object as a part of another one; whether it can be assigned follows from its
shape. -/
def innerCollection (self : Rules) (ctx : Context) (reading : Reading) : Parser Operand := do
  let inner ← self.collection ctx { reading with takesValue := true }
  setAssignable (!(← lastShape).noPattern)
  return inner

/-! ### Elements of lists -/

/-- An element that begins with a word. -/
def wordElement (self : Rules) (ctx : Context) (reading : Reading) (shape : Shape) :
    Parser Shaped := do
  let start ← place
  let first ← self.primary ctx { kind := reading.kind }
  if ← sees "=" then
    require (← isAssignable)
    let operand ← assignValue self ctx start first
    return (operand, shape.join (← lastShape).operator)
  else if ← endsPart "]" then
    return (first, (shape.join (.ofName (← isAssignable))).join (← lastShape).operator)
  else
    let shape := shape.join <| match reading.kind with
      | .expression => {}
      | .parameter => { noBinding := true }
      | _ => { noPattern := true }
    let operand ← suffixes self ctx start first
    if ← endsPart "]" then return (operand, shape.join (.ofPlace (← isAssignable)))
    else
      let isPlain ← sees "="
      let operand ← assignmentRest self ctx start operand
      return (operand, shape.join { noPattern := !isPlain })

/-- An element that is a list or an object. -/
def patternElement (self : Rules) (ctx : Context) (reading : Reading) (shape : Shape) :
    Parser Shaped := do
  let start ← place
  let inner ← innerCollection self ctx reading
  if ← endsPart "]" then return (inner, shape.join (← lastShape))
  let operand ← innerSuffixes self ctx start inner
  let shape := Shape.ofName (← isAssignable)
  if ← endsPart "]" then return (operand, shape.join (.ofPlace (← isAssignable)))
  return (← assignmentRest self ctx start operand, shape)

/-- Any other element; one in parentheses can be assigned, but never bound. -/
def valueElement (self : Rules) (ctx : Context) (reading : Reading) (shape : Shape) :
    Parser Shaped := do
  let start ← place
  let inParentheses ← sees "("
  let operand ← leftHand self ctx.ungrouped {}
  if ← endsPart "]" then
    let binds := reading.kind = .expression || reading.kind = .parameter
    if !(← isAssignable) then return (operand, shape.join { noPattern := true })
    else if inParentheses then return (operand, shape.join (.ofPlace binds))
    else return (operand, shape)
  else
    let operand ← assignmentRest self ctx start operand
    let isNew := inParentheses && !shape.onlyPattern && !shape.noPattern
    return (operand, shape.join { noBinding := isNew })

/-- The elements of a list, the last one first, and their shape. -/
abbrev Elements := List Element × Shape

/-- An element of a list that is no hole. -/
def element (self : Rules) (ctx : Context) (reading : Reading) (s : Elements) :
    Parser Elements := do
  let (taken, shape) := s
  if ← sees "..." then
    let operand ← spread self ctx "]" reading false
    return (.spread operand.expr :: taken, shape.join (← lastShape))
  let (operand, shape) ←
    if (← openWord?).isSome then wordElement self ctx reading shape
    else if (← peek).opensPattern then patternElement self ctx reading shape
    else valueElement self ctx reading shape
  return (.item operand.expr :: taken, shape)

/-- A list, from its opening bracket on. -/
def arrayRule (self : Rules) (outer : Context) (reading : Reading) : Parser Operand := do
  let start ← place
  let ctx := outer.withIn
  expect ctx.operand "["
  let (taken, shape) ← iterate (fun (s : Elements) => do
    if ← accept ctx "]" then return .done s
    if ← accept ctx.operand "," then return .again (.hole :: s.1, s.2)
    let s ← element self ctx reading s
    if ← accept ctx "]" then return .done s
    expect ctx.operand ","
    return .again s) self.budget ([], {})
  endCollection self ctx reading start shape (.array taken.reverse)

/-! ### Properties of objects -/

/-- A name in brackets. -/
def computedKey (self : Rules) (ctx : Context) : Parser Key := do
  expect ctx.operand "["
  let key ← self.assignment ctx.withIn
  expect ctx "]"
  return .computed key.expr

/-- A string or a number. -/
def literal? : Token → Option Expr
  | .string value _ => some (.string value)
  | .number value _ => some (.number value)
  | .numeral value => some (.string value)
  | .bigint value => some (.bigint value)
  | _ => none

/-- A name that is a string or a number. -/
def literalKey (ctx : Context) : Parser Key := do
  let value ← require? (literal? (← peek))
  advance ctx
  setAssignable false
  return .literal value

/-- The name of a property or a member that is not private. -/
def propertyKey (self : Rules) (ctx : Context) : Parser Key := do
  match ← peek with
  | .word word =>
    passName ctx
    return .label word.name
  | .mark _ => computedKey self ctx
  | _ => literalKey ctx

/-- The name of a property behind an asterisk or a word that modifies it. -/
def methodKey (self : Rules) (ctx : Context) : Parser Key := do
  match ← peek with
  | .word word => require word.vocabulary.isOpen
  | _ => pure ()
  propertyKey self ctx

/-- A value that begins with a word, behind a name that is a word or a literal; behind a literal a
member with a default may be bound. -/
def wordValue (self : Rules) (ctx : Context) (reading : Reading) (shape : Shape) (isLabel : Bool) :
    Parser Shaped := do
  let start ← place
  let first ← self.primary ctx { kind := reading.kind }
  let isMember := !(← seesOneOf ["=", ",", "\x7d"])
  let operand ← suffixes self ctx start first
  if ← endsPart "\x7d" then
    if isMember then return (operand, shape.join (.ofPlace (← isAssignable)))
    else
      let fit := (Shape.ofName (← isAssignable)).join { awaits := (← lastShape).awaits }
      return (operand, shape.join fit)
  else
    let isPlain ← sees "="
    let assignable ← isAssignable
    let fit : Shape := if !isPlain then { noPattern := true }
      else if isMember && isLabel then .ofPlace assignable else .ofName assignable
    return (← assignmentRest self ctx start operand, shape.join fit)

/-- A value that begins with a word, behind a name in brackets; anything may be assigned to it. -/
def computedWordValue (self : Rules) (ctx : Context) (reading : Reading) (shape : Shape) :
    Parser Shaped := do
  let start ← place
  let first ← self.primary ctx { kind := reading.kind }
  let isPlain ← sees "="
  let isMember := !(← seesOneOf ["=", ",", "\x7d"])
  let operand ← suffixes self ctx start first
  let assignable ← isAssignable
  if (← peek).assigns then
    let fit := if assignable && isPlain then {} else Shape.ofPlace assignable
    return (← assignTo self ctx start operand, shape.join fit)
  else if ← endsPart "\x7d" then
    return (operand, shape.join (if isMember then .ofPlace assignable else .ofName assignable))
  else return (← assignmentRest self ctx start operand, shape.join { noPattern := true })

/-- A value that is a list or an object; its shape takes the place of the one so far.  With suffixes
it is kept only behind a name in brackets, where nothing can be assigned. -/
def patternValue (self : Rules) (ctx : Context) (reading : Reading) (isComputed : Bool) :
    Parser Shaped := do
  let start ← place
  let inner ← innerCollection self ctx reading
  let innerShape ← lastShape
  if ← endsPart "\x7d" then return (inner, innerShape)
  let operand ← innerSuffixes self ctx start inner
  let assignable ← isAssignable
  let shape := if isComputed && !assignable then innerShape.join (.ofName assignable)
    else .ofName assignable
  if (← peek).assigns then return (← assignTo self ctx start operand, shape)
  let operand ← branches self ctx start (← operators self ctx.grouped start operand)
  return (operand, shape.join (.ofPlace (← isAssignable)))

/-- Any other value, behind a name that is a word or another one; operators behind it give the
object a new shape. -/
def plainValue (self : Rules) (ctx : Context) (shape : Shape) (isLabel : Bool) :
    Parser Shaped := do
  let start ← place
  let operand ← leftHand self (if isLabel then ctx else ctx.ungrouped) {}
  if ← endsPart "\x7d" then return (operand, shape.join (.ofPlace (← isAssignable)))
  let operand ← suffixes self ctx start operand
  let shape := Shape.ofName (← isAssignable)
  if ← endsPart "\x7d" then return (operand, shape)
  let isPlain ← sees "="
  return (← assignmentRest self ctx start operand, shape.join { noPattern := !isPlain })

/-- The key stands in brackets. -/
def Key.isComputed : Key → Bool
  | .computed _ => true
  | _ => false

/-- The key is a word. -/
def Key.isLabel : Key → Bool
  | .label _ => true
  | _ => false

/-- The value of a property, behind its key and the colon. -/
def propertyValue (self : Rules) (ctx : Context) (reading : Reading) (shape : Shape) (key : Key) :
    Parser Shaped := do
  if (← openWord?).isSome then
    if key.isComputed then computedWordValue self ctx reading shape
    else wordValue self ctx reading shape key.isLabel
  else if (← peek).opensPattern then patternValue self ctx reading key.isComputed
  else plainValue self ctx shape key.isLabel

/-- The properties of an object, the last one first, with their shape and the number of those that
set the prototype. -/
structure Properties where
  taken : List Property
  shape : Shape
  prototypes : Nat

/-- Adds a property that fits no pattern. -/
def Properties.addMethod (s : Properties) (key : Key) : Properties :=
  { s with taken := .method key :: s.taken, shape := s.shape.join { noPattern := true } }

/-- The key sets the prototype of an object. -/
def Key.isPrototype : Key → Bool
  | .label name => name == ("__proto__" : Text)
  | .literal (.string name) => name == ("__proto__" : Text)
  | _ => false

/-- Adds a property with a value, behind its key and the colon. -/
def Properties.addValue (self : Rules) (ctx : Context) (reading : Reading) (s : Properties)
    (key : Key) : Parser Properties := do
  let (operand, shape) ← propertyValue self ctx reading s.shape key
  return {
    taken := .entry key operand.expr :: s.taken
    shape
    prototypes := s.prototypes + if key.isPrototype then 1 else 0 }

/-- Adds a property that is a name, perhaps with a default as in a pattern. -/
def Properties.addName (self : Rules) (ctx : Context) (reading : Reading) (s : Properties)
    (word : Word) : Parser Properties := do
  let kind := word.vocabulary
  let isRefused := ctx.strict && kind = .restricted
  require (isRefused || kind = .disguisedFuture || ctx.admitsBinding reading.kind kind)
  let shape := s.shape.join { noPattern := isRefused }
  if ← accept ctx.operand "=" then
    let value ← self.assignment ctx
    let shape := (shape.join { onlyPattern := true }).join (← lastShape).operator
    return { s with taken := .shorthandDefault word.name value.expr :: s.taken, shape }
  else
    let shape := shape.join { awaits := kind = .await }
    return { s with taken := .entry (.label word.name) (.name word.name) :: s.taken, shape }

/-- The kind of method that a word in front of a key announces. -/
def Word.methodKind (word : Word) (isGenerator : Bool) : MethodKind :=
  if word.escaped then { isGenerator }
  else if word.name == ("async" : Text) then { isAsync := true, isGenerator }
  else if word.name == ("get" : Text) then { accessor := some .getter, isGenerator }
  else if word.name == ("set" : Text) then { accessor := some .setter, isGenerator }
  else { isGenerator }

/-- Adds a method whose key stands behind a word, and perhaps behind an asterisk. -/
def Properties.addModified (self : Rules) (ctx : Context) (s : Properties) (word : Word) :
    Parser Properties := do
  let token ← peek
  let isGenerator ← accept ctx "*"
  let kind := word.methodKind isGenerator
  require (kind.isAsync || !isGenerator)
  match token with
  | .word _ =>
    require (kind.isAsync || kind.accessor.isSome)
    require (!(kind.isAsync && (← onNewLine)))
  | _ => pure ()
  let key ← methodKey self ctx
  let _ ← method self ctx kind
  return s.addMethod key

/-- Adds a property that begins with a word: a value, a name, or a method that the word names or
modifies. -/
def Properties.addWord (self : Rules) (ctx : Context) (reading : Reading) (s : Properties)
    (word : Word) : Parser Properties := do
  let isDisguised := word.vocabulary = .disguisedFuture
  let s := { s with shape := s.shape.join { noPattern := isDisguised } }
  passName ctx
  if ← seesOneOf [",", "\x7d", "="] then s.addName self ctx reading word
  else if ← accept ctx.operand ":" then s.addValue self ctx reading (.label word.name)
  else if ← sees "(" then
    let _ ← method self ctx {}
    return s.addMethod (.label word.name)
  else s.addModified self ctx word

/-- Adds a property that begins with a string, a number or an opening bracket; a method among these
hides what the properties in front of it demand. -/
def Properties.addKey (self : Rules) (ctx : Context) (reading : Reading) (s : Properties) :
    Parser Properties := do
  let key ← propertyKey self ctx
  let yields := (← lastShape).yields && key.isComputed
  if ← accept ctx.operand ":" then
    Properties.addValue self ctx reading { s with shape := s.shape.join { yields } } key
  else
    let _ ← method self ctx {}
    return { s with shape := {} }.addMethod key

/-- Adds a property. -/
def Properties.add (self : Rules) (ctx : Context) (reading : Reading) (s : Properties) :
    Parser Properties := do
  match ← peek with
  | .word word => s.addWord self ctx reading word
  | _ =>
    if ← accept ctx "*" then
      let key ← methodKey self ctx
      let _ ← method self ctx { isGenerator := true }
      return s.addMethod key
    else s.addKey self ctx reading

/-- Adds a part of an object: a property, or what stands behind three dots. -/
def Properties.addPart (self : Rules) (ctx : Context) (reading : Reading) (s : Properties) :
    Parser Properties := do
  if ← sees "..." then
    let operand ← spread self ctx "\x7d" reading false
    return { s with
      taken := .spread operand.expr :: s.taken
      shape := s.shape.join (← lastShape) }
  else
    let s ← s.add self ctx reading
    let shape := s.shape.join { awaits := (← lastShape).awaits }
    setShape shape
    return { s with shape }

/-- An object, from its opening brace on. -/
def objectRule (self : Rules) (outer : Context) (reading : Reading) : Parser Operand := do
  let start ← place
  let ctx := outer.withIn
  expect ctx "\x7b"
  let s ← iterate (fun (s : Properties) => do
    if ← accept ctx "\x7d" then return .done s
    let s ← s.addPart self ctx reading
    if ← accept ctx "\x7d" then return .done s
    expect ctx ","
    return .again s) self.budget ⟨[], {}, 0⟩
  let shape := s.shape.join { repeatsPrototype := decide (1 < s.prototypes) }
  endCollection self ctx reading start shape (.object s.taken.reverse)

/-- A list or an object. -/
def collectionRule (self : Rules) (ctx : Context) (reading : Reading) : Parser Operand := do
  if ← sees "[" then arrayRule self ctx reading else objectRule self ctx reading

end JsonCompanion.Script
