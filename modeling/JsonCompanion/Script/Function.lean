import JsonCompanion.Script.Pattern

/-!
# Functions

* `formals` parses the parameters of a function between parentheses.
* `functionTail` parses a function from its parameters on, `functionExpression` one that stands as
  an expression, `method` one that belongs to an object or a class.
* `arrowFunction` parses an arrow function from its arrow on.
-/

namespace JsonCompanion.Script

/-! ### Parameters -/

/-- A parameter: its pattern, and whether it is a mere name. -/
structure Formal where
  pattern : Pattern
  isSimple : Bool

/-- How parameters are read: what their names are met for, and whether a pattern may be missing in
front of a default. -/
structure FormalReading where
  kind : BindingKind := .parameter
  mayMiss : Bool := false

/-- The pattern of a parameter that is no name. -/
def formalPattern (self : Rules) (ctx : Context) (reading : FormalReading) : Parser Pattern := do
  let pattern ←
    if ← sees "..." then
      let operand ← spread self ctx ")" ⟨.parameter, true, false⟩ false
      pure (Pattern.rest operand.expr.pattern)
    else if (← peek).opensPattern then
      let operand ← self.collection ctx ⟨.parameter, true, false⟩
      pure operand.expr.pattern
    else
      require (reading.mayMiss && (← sees "="))
      pure .missing
  requireBinding
  return pattern

/-- A parameter with an optional default. -/
def formal (self : Rules) (ctx : Context) (reading : FormalReading) : Parser Formal := do
  let formal ← match ← openWord? with
    | some word =>
      let name ← bindingName ctx reading.kind
      noteParameter word.vocabulary
      pure (⟨.name name, true⟩ : Formal)
    | none => pure (⟨← formalPattern self ctx reading, false⟩ : Formal)
  if ← accept ctx.operand "=" then
    let _ ← self.assignment ctx
    return ⟨.withDefault formal.pattern, false⟩
  else return formal

/-- Parameters between parentheses. -/
def formals (self : Rules) (ctx : Context) (reading : FormalReading) : Parser (List Formal) := do
  expect ctx "("
  let list ← commaList self.budget ctx ")" (formal self ctx reading)
  expect ctx ")"
  return list

/-! ### Functions and methods -/

/-- A function from its parameters on, given its name and whether an operand may follow it. -/
def functionTail (self : Rules) (ctx : Context) (name : Option Word) (precedesOperand : Bool) :
    Parser Unit := do
  let list ← formals self ctx.parameters {}
  let _ ← self.functionBody ctx.body {
    isSimple := list.all Formal.isSimple
    isRestricted := name.any fun word => word.vocabulary.isRestricted
    precedesOperand }

/-- A function as an expression, at the word `function`. -/
def functionExpression (self : Rules) (ctx : Context) (isAsync : Bool) : Parser Unit := do
  expectWord ctx "function"
  let isGenerator ← accept ctx "*"
  let inside := ctx.function isAsync isGenerator
  let name ← openWord?
  match name with
  | some word =>
    require (inside.admitsBinding .variable word.vocabulary)
    passName ctx
  | none => pure ()
  functionTail self inside name false
  setAssignable false

/-- The two halves of an accessor. -/
inductive Accessor
  | getter
  | setter

/-- What a method is. -/
structure MethodKind where
  accessor : Option Accessor := none
  isAsync : Bool := false
  isGenerator : Bool := false
  isConstructor : Bool := false

/-- The number and the form of parameters fit the kind of method. -/
def MethodKind.admits (kind : MethodKind) (patterns : List Pattern) : Bool :=
  match kind.accessor, patterns with
  | some .getter, patterns => patterns.isEmpty
  | some .setter, [.rest _] => false
  | some .setter, patterns => patterns.length == 1
  | none, _ => true

/-- How the parameters of a method are read. -/
def MethodKind.reading (kind : MethodKind) : FormalReading where
  kind := if kind.isAsync || kind.isGenerator then .lexical else .parameter
  mayMiss := true

/-- A method from its parameters on. -/
def method (self : Rules) (ctx : Context) (kind : MethodKind) :
    Parser (List Pattern × List Effect) := do
  let inside := ctx.method kind.isAsync kind.isGenerator kind.isConstructor
  let list ← formals self inside.methodParameters kind.reading
  let patterns := list.map Formal.pattern
  require (kind.admits patterns)
  return (patterns, ← self.functionBody inside.body { isSimple := list.all Formal.isSimple })

/-! ### Arrow functions -/

/-- What may not follow the statements of an arrow function: anything that would be applied to it.
A parenthesis on a new line is left to what follows. -/
def endArrow : Parser Unit := do
  let token ← peek
  let newLine ← onNewLine
  require (!token.isOneOf [".", "?"] && !token.updates)
  require (newLine || (!token.isOneOf ["[", "("] && (binaryOperator? token).isNone))
  match token with
  | .template _ last => require (!last)
  | _ => pure ()
  if token.isMark "(" then modify fun p => { p with endsCalls := true }

/-- An arrow function from its arrow on, on the line where its head ends, given its parameters. -/
def arrowFunction (self : Rules) (ctx : Context) (start : Nat) (isAsync isSimple : Bool)
    (parameters : List Element) : Parser Operand := do
  require (!(← onNewLine))
  expect ctx.operand "=>"
  let inside := ctx.arrow isAsync
  let body ← if ← sees "\x7b" then do
      let _ ← self.functionBody inside.arrowBody { isSimple, precedesOperand := true }
      endArrow
      pure none
    else
      pure (some (← self.assignment inside).expr)
  setAssignable false
  return ⟨.arrow parameters body, ← spanFrom start⟩

/-- An arrow function whose only parameter is a name. -/
def arrowOfName (self : Rules) (ctx : Context) (start : Nat) (isAsync : Bool) (name : Text)
    (word : Vocabulary) : Parser Operand := do
  require (!(ctx.strict && word = .restricted))
  noteParameter word
  arrowFunction self ctx start isAsync true [.item (.name name)]

end JsonCompanion.Script
