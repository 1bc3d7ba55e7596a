import JsonCompanion.Script.Collection

/-!
# Parentheses

What stands between parentheses may turn out to be the parameters of an arrow function.

* `group` parses an expression in parentheses or an arrow function, `asyncCall` a call of a function
  named `async` or an asynchronous arrow function.
* `nameOrArrow` parses a name or an arrow function with one parameter.
-/

namespace JsonCompanion.Script

/-! ### Parts -/

/-- A part in parentheses: an element with its shape, and whether it is a mere name as a
parameter. -/
structure Part where
  start : Nat
  element : Element
  shape : Shape
  isSimple : Bool := false

/-- The expression of an element; a hole has none. -/
def Element.expr : Element → Expr
  | .hole => .null
  | .spread value | .item value => value

/-- A part that begins with a word.  What strict code refuses as a parameter is no mere name in a
group, and is noted in a call of `async`. -/
def wordPart (self : Rules) (ctx : Context) (isAsync : Bool) (word : Vocabulary) : Parser Part := do
  let start ← place
  let first ← self.primary ctx { kind := .parameter }
  if ← endsPart ")" then
    let assignable ← isAssignable
    if isAsync then noteParameter word
    let isSimple := assignable && (isAsync || !word.isRestricted)
    return ⟨start, .item first.expr, .ofName assignable, isSimple⟩
  let isPlain ← sees "="
  let operand ← suffixes self ctx start first
  let operand ← if ← endsPart ")" then pure operand else assignmentRest self ctx start operand
  return ⟨start, .item operand.expr, { noPattern := !isPlain }, false⟩

/-- What follows a list or an object that is a part: operators or a condition, and in a group also
an assignment. -/
def patternRest (self : Rules) (ctx : Context) (isAsync : Bool) (start : Nat) (inner : Operand) :
    Parser Operand := do
  let operand ← innerSuffixes self ctx.ungrouped start inner
  if isAsync then branches self ctx start (← operators self ctx.grouped start operand)
  else if ← endsPart ")" then return operand
  else assignmentRest self ctx.ungrouped start operand

/-- A part that begins with a list or an object. -/
def patternPart (self : Rules) (ctx : Context) (isAsync : Bool) : Parser Part := do
  let start ← place
  let inner ← self.collection ctx ⟨.parameter, false, true⟩
  let shape ← lastShape
  if !isAsync then setAssignable false
  if ← endsPart ")" then return ⟨start, .item inner.expr, shape, false⟩
  let operand ← patternRest self ctx isAsync start inner
  return ⟨start, .item operand.expr, shape.join { noPattern := true }, false⟩

/-- A part that may be a parameter: a word, a list or an object with what follows it, or what stands
behind three dots. -/
def part? (self : Rules) (ctx : Context) (isAsync : Bool) : Parser (Option Part) := do
  if ← sees "..." then
    let start ← place
    let operand ← spread self ctx ")" ⟨.parameter, false, false⟩ isAsync
    return some ⟨start, .spread operand.expr, ← lastShape, false⟩
  else match ← openWord? with
    | some word => return some (← wordPart self ctx isAsync word.vocabulary)
    | none =>
      if (← peek).opensPattern then return some (← patternPart self ctx isAsync)
      else return none

/-- What has been read between parentheses: the parts, the last one first, and the shape of all. -/
structure Parts where
  parts : List Part
  shape : Shape

/-- Adds a part. -/
def Parts.add (s : Parts) (part : Part) (shape : Shape) : Parts :=
  ⟨part :: s.parts, s.shape.join shape⟩

/-- All parts are mere names. -/
def Parts.areSimple (s : Parts) : Bool := s.parts.all Part.isSimple

/-- The operators inside what comes next are counted anew. -/
def forgetOperators : Parser Unit := do
  setShape { ← lastShape with awaits := false, yields := false }

/-- The parts are parameters, in which the operators that the code around knows may not occur. -/
def Parts.requireParameters (s : Parts) (ctx : Context) (isAsync : Bool) : Parser Unit := do
  require (!s.shape.noPattern && !s.shape.noBinding)
  require (!(s.shape.awaits && (isAsync || ctx.inAsync || ctx.isModule)))
  require (!(s.shape.yields && (ctx.strict || ctx.inGenerator)))
  require (s.parts.all fun p => p.element.expr.assignsPlainly)

/-- What the parts between parentheses have come to: the finished expression, or parts that may
still be parameters. -/
inductive Reached
  | expression (operand : Operand)
  | parts (parts : Parts)

/-! ### Groups -/

/-- The expression of parts that are no parameters. -/
def Parts.operand (s : Parts) (stop : Nat) : Parser Operand :=
  match s.parts with
  | [] => failure
  | [part] => return ⟨part.element.expr, ⟨part.start, stop⟩⟩
  | part :: parts =>
    return ⟨.runtime .sequence, ⟨((part :: parts).getLastD part).start, stop⟩⟩

/-- The rest of a group from a part on that is no parameter. -/
def groupRest (self : Rules) (ctx : Context) (s : Parts) : Parser Operand := do
  let start ← place
  let first ← self.assignment ctx
  let isSequence := !s.parts.isEmpty || (← sees ",")
  let last ← self.sequence ctx start first
  if isSequence then setAssignable false
  let stop ← lastStop
  expect ctx ")"
  setShape (s.shape.join { noPattern := true })
  match s.parts.getLast? with
  | some part => return ⟨.runtime .sequence, ⟨part.start, stop⟩⟩
  | none => return last

/-- The parts of a group up to the closing parenthesis. -/
def groupParts (self : Rules) (ctx : Context) : Parser Reached :=
  iterate (fun (s : Parts) => do
    let isLast ← sees "..."
    match ← part? self ctx false with
    | none => return .done (.expression (← groupRest self ctx s))
    | some part =>
      if isLast then
        require (!part.shape.noPattern)
        return .done (.parts (s.add part { onlyPattern := true }))
      let s := s.add part part.shape
      if ← accept ctx.operand "," then
        if ← sees ")" then return .done (.parts { s with shape.onlyPattern := true })
        return .again s
      else return .done (.parts s)) self.budget ⟨[], {}⟩

/-- An expression in parentheses, or an arrow function. -/
def group (self : Rules) (outer : Context) (here : Place) (start : Nat) : Parser Operand := do
  let ctx := outer.withIn.tagged
  expect ctx.operand "("
  if ← accept ctx ")" then
    require here.canAssign
    arrowFunction self ctx start false true []
  else
    forgetOperators
    setAssignable true
    match ← groupParts self ctx.grouped with
    | .expression operand => return operand
    | .parts s =>
      let stop ← lastStop
      if 1 < s.parts.length then setAssignable false
      expect ctx ")"
      require (!(s.shape.noPattern && s.shape.onlyPattern))
      let s := { s with shape := s.shape.join (← lastShape).operator }
      if ← sees "=>" then
        s.requireParameters ctx false
        require here.canAssign
        arrowFunction self ctx start false s.areSimple (s.parts.reverse.map Part.element)
      else
        require (!s.shape.onlyPattern && !s.shape.repeatsPrototype)
        setShape ((← lastShape).join s.shape)
        s.operand stop

/-! ### Asynchronous arrow functions -/

/-- The rest of a call of `async` from an argument on that is no parameter. -/
def asyncRest (self : Rules) (ctx : Context) (callee : Expr) (start : Nat) (s : Parts) :
    Parser Operand := do
  let list ← iterate (fun taken => do
    let operand ← self.assignment ctx
    let taken := Element.item operand.expr :: taken
    if ← accept ctx.operand "," then return .again taken
    return .done taken) self.budget (s.parts.map Part.element)
  expect ctx ")"
  setShape { noPattern := true }
  setAssignable false
  return ⟨.call callee list.reverse, ← spanFrom start⟩

/-- The parts behind `async` up to the closing parenthesis. -/
def asyncParts (self : Rules) (ctx : Context) (callee : Expr) (start : Nat) : Parser Reached :=
  iterate (fun (s : Parts) => do
    if ← sees ")" then return .done (.parts s)
    let isSpread ← sees "..."
    match ← part? self ctx.grouped true with
    | none => return .done (.expression (← asyncRest self ctx.ungrouped callee start s))
    | some part =>
      let isLast ← sees ")"
      let s := s.add part (part.shape.join { noPattern := isSpread && !isLast })
      if ← accept ctx.operand "," then return .again s
      return .done (.parts s)) self.budget ⟨[], {}⟩

/-- A call of a function named `async`, or an asynchronous arrow function, from the opening
parenthesis on; a line must not end before it in front of an arrow. -/
def asyncCall (self : Rules) (outer : Context) (canAssign : Bool) (start : Nat) (callee : Expr) :
    Parser Operand := do
  let newLine ← onNewLine
  let ctx := outer.withIn
  expect ctx.operand "("
  if ← accept ctx ")" then
    if ← sees "=>" then
      require (!newLine && canAssign)
      arrowFunction self ctx start true true []
    else return ⟨.call callee [], ← spanFrom start⟩
  else
    forgetOperators
    match ← asyncParts self ctx callee start with
    | .expression operand => return operand
    | .parts s =>
      expect ctx ")"
      let s := { s with shape := s.shape.join (← lastShape).operator }
      if ← sees "=>" then
        s.requireParameters ctx true
        require (!newLine && canAssign)
        arrowFunction self ctx start true s.areSimple (s.parts.reverse.map Part.element)
      else
        require (!s.shape.onlyPattern)
        setAssignable false
        return ⟨.call callee (s.parts.reverse.map Part.element), ← spanFrom start⟩

/-! ### Names -/

/-- A name, or an arrow function whose only parameter it is. -/
def nameOrArrow (self : Rules) (ctx : Context) (name : Text) : Parser Operand := do
  let start ← place
  passName ctx
  setAssignable true
  if ← sees "=>" then arrowFunction self ctx start false true [.item (.name name)]
  else return ⟨.name name, ← spanFrom start⟩

/-- An asynchronous arrow function whose only parameter is the word at hand. -/
def asyncArrowOfName (self : Rules) (ctx : Context) (start : Nat) (word : Vocabulary) :
    Parser Operand := do
  require (word != .await && !((ctx.strict || ctx.inGenerator) && word = .yield))
  let name := (← peek).spelling
  passName ctx
  arrowOfName self ctx start true name word

end JsonCompanion.Script
