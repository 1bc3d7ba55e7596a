import JsonCompanion.Script.Token

/-!
# Where code stands

What is allowed at a place of a script depends on the functions, classes and loops around it.

* `Context` holds what they allow; `Context.module` and `Context.script` are the outermost ones, and
  `Context.function`, `Context.arrow`, `Context.method` and others lead inwards.
* `Context.operand` and `Context.tagged` are the contexts in which the one token behind an operator
  or a tag is read.
* `Context.vocabulary` says what a word is at a place.
* `Context.admitsBinding` says which words may be bound, `Context.isIdentifier` which may be names.
* `Context.labelled?` enters a labelled statement, `Context.knowsLabel` finds the target of a jump.
-/

namespace JsonCompanion.Script

/-- What a name is met for: as a part of an expression, as a parameter, as a variable of a block, or
as any other variable. -/
inductive BindingKind
  | expression
  | parameter
  | lexical
  | variable
  deriving DecidableEq

/-- The labels in front of a statement, which may be the body of a loop. -/
structure LabelFrame where
  isLoop : Bool
  names : List Text

/-- What the code around a place allows. -/
structure Context where
  isModule : Bool
  strict : Bool
  /-- No body of a function in braces stands around. -/
  isTop : Bool
  inAsync : Bool
  inGenerator : Bool
  inParameters : Bool
  /-- The code may turn out to be parameters of an arrow function. -/
  inGroup : Bool
  /-- The word `in` is an operator. -/
  inOperator : Bool
  returns : Bool
  newTarget : Bool
  superMember : Bool
  superCall : Bool
  /-- The code is the value of a field, where `arguments` is refused. -/
  inField : Bool
  /-- A class stands around, with no arrow function between that has a body in braces. -/
  inClass : Bool
  inStaticBlock : Bool
  inLoop : Bool
  inSwitch : Bool
  /-- A slash begins a regular expression. -/
  expectsOperand : Bool
  /-- Templates may hold escapes that are not valid. -/
  looseTemplates : Bool
  /-- Escapes in words matter less: `yield` is a mere name with them, and inside functions reserved
  words stay reserved. -/
  freeEscapes : Bool
  labels : List LabelFrame

namespace Context

/-- The context of the statements of a module. -/
def module : Context where
  isModule := true
  strict := true
  isTop := true
  inAsync := false
  inGenerator := false
  inParameters := false
  inGroup := false
  inOperator := true
  returns := false
  newTarget := false
  superMember := false
  superCall := false
  inField := false
  inClass := false
  inStaticBlock := false
  inLoop := false
  inSwitch := false
  expectsOperand := false
  looseTemplates := false
  freeEscapes := false
  labels := [⟨false, []⟩]

/-- The context of the statements of a script, in which fewer words are reserved. -/
def script : Context := { module with isModule := false, strict := false }

/-! ### Inner contexts -/

/-- The context of a token that begins an operand or a statement. -/
def operand (ctx : Context) : Context := { ctx with expectsOperand := true }

/-- The context of a token behind a tag. -/
def tagged (ctx : Context) : Context := { ctx with looseTemplates := true }

/-- The context of a substitution in a template. -/
def substitution (ctx : Context) : Context :=
  { ctx with inOperator := true, inGroup := false, looseTemplates := false }

/-- The context where `in` is an operator. -/
def withIn (ctx : Context) : Context := { ctx with inOperator := true }

/-- The context where `in` is none, the head of a loop. -/
def withoutIn (ctx : Context) : Context := { ctx with inOperator := false }

/-- The context of code that may turn out to be parameters. -/
def grouped (ctx : Context) : Context := { ctx with inGroup := true }

/-- The context of code that is no parameter. -/
def ungrouped (ctx : Context) : Context := { ctx with inGroup := false }

/-- The context of a function's parameters and body. -/
def function (ctx : Context) (isAsync isGenerator : Bool) : Context :=
  { ctx with
    inAsync := isAsync
    inGenerator := isGenerator
    inParameters := false
    newTarget := true
    superMember := false
    superCall := false
    inField := false
    inStaticBlock := false
    freeEscapes := ctx.freeEscapes || !isGenerator }

/-- The context of a method's parameters and body, where members of the superclass are in reach. -/
def method (ctx : Context) (isAsync isGenerator isConstructor : Bool) : Context :=
  { ctx.function isAsync isGenerator with
    superMember := true
    superCall := isConstructor && ctx.superCall
    freeEscapes := ctx.freeEscapes }

/-- The context of parameters. -/
def parameters (ctx : Context) : Context := { ctx with inParameters := true, inOperator := true }

/-- The context of the parameters of a method. -/
def methodParameters (ctx : Context) : Context := { ctx.parameters with freeEscapes := true }

/-- The context of the statements of a function. -/
def body (ctx : Context) : Context :=
  { ctx with
    isTop := false
    inParameters := false
    inGroup := false
    inOperator := true
    returns := true
    inLoop := false
    inSwitch := false
    labels := [⟨false, []⟩] }

/-- The context inside an arrow function, which shares `this` and `arguments` with the code
around. -/
def arrow (ctx : Context) (isAsync : Bool) : Context :=
  { ctx with inAsync := isAsync, inGenerator := false, inParameters := false, inGroup := false }

/-- The context of the statements of an arrow function, from which a loop around is in reach. -/
def arrowBody (ctx : Context) : Context :=
  { ctx.body with inLoop := ctx.inLoop, inField := false, inClass := false }

/-- The context of the value of a field. -/
def field (ctx : Context) (isAsync isConstructor : Bool) : Context :=
  { ctx with
    inAsync := isAsync
    inGenerator := false
    inParameters := false
    inGroup := false
    newTarget := true
    superMember := true
    superCall := isConstructor && ctx.superCall
    inField := true }

/-- The context of the statements of a static block. -/
def staticBlock (ctx : Context) : Context :=
  { ctx.field false false with
    inOperator := true
    returns := false
    inStaticBlock := true
    inLoop := false
    inSwitch := false
    labels := [⟨false, []⟩] }

/-- The context of a statement in a block or a branch. -/
def nested (ctx : Context) : Context := { ctx with labels := ⟨false, []⟩ :: ctx.labels }

/-- The context of the body of a loop. -/
def loop (ctx : Context) : Context :=
  { ctx with inOperator := true, inLoop := true, labels := ⟨true, []⟩ :: ctx.labels }

/-- The context of a statement in a `switch`. -/
def cases (ctx : Context) : Context := { ctx.nested with inSwitch := true }

/-! ### Words -/

/-- What a word is that would be special, were no escape in it. -/
def disguise (ctx : Context) : Vocabulary → Vocabulary
  | .plain => .plain
  | .reserved => if ctx.freeEscapes && !ctx.isTop then .reserved else .disguised
  | .await => if ctx.isModule || ctx.inAsync then .disguised else .plain
  | .async => .plain
  | .let => if ctx.strict then .disguisedFuture else .let
  | .yield =>
    if ctx.strict then .disguisedFuture
    else if ctx.freeEscapes then .plain
    else if ctx.inGenerator then .disguised else .futureName
  | .future => if ctx.strict then .disguisedFuture else .futureName
  | _ => if ctx.strict then .plain else .disguised

/-- What a word is at a place. -/
def vocabulary (ctx : Context) (name : Text) (escaped : Bool) : Vocabulary :=
  let word := Vocabulary.ofWord name
  if escaped then ctx.disguise word else word

/-- The word may be a name. -/
def isIdentifier (ctx : Context) (word : Vocabulary) : Bool :=
  if ctx.strict || ctx.inGenerator then
    !(ctx.isModule && word = .await) && !(ctx.inGenerator && word = .yield) &&
    (word.isName || word = .particle)
  else word.isName || word = .particle || word = .future

/-- The word may be a label. -/
def admitsLabel (ctx : Context) (word : Vocabulary) : Bool :=
  !(ctx.strict && word.isFuture) && word != .reserved && word.isOpen &&
  !((ctx.inAsync || ctx.isModule) && word = .await) && !(ctx.inGenerator && word = .yield)

/-- The word may be bound. -/
def admitsBinding (ctx : Context) (kind : BindingKind) (word : Vocabulary) : Bool :=
  ctx.admitsLabel word && !(ctx.strict && word = .restricted) && !(kind = .lexical && word = .let)

/-! ### Labels -/

/-- Enters a statement with a label that no statement around has. -/
def labelled? (ctx : Context) (name : Text) : Option Context :=
  if ctx.labels.any fun frame => frame.names.contains name then none
  else match ctx.labels with
    | frame :: frames =>
      some { ctx with labels := { frame with names := name :: frame.names } :: frames }
    | [] => some { ctx with labels := [⟨false, [name]⟩] }

/-- A label is in reach; where a loop is needed, the body of one stands between. -/
def reaches (name : Text) : (needsLoop : Bool) → List LabelFrame → Bool
  | _, [] => false
  | needsLoop, frame :: frames =>
    if frame.names.contains name then !needsLoop
    else reaches name (needsLoop && !frame.isLoop) frames

/-- A statement around has the label. -/
def knowsLabel (ctx : Context) (name : Text) : Bool := reaches name false ctx.labels

/-- A loop around has the label. -/
def knowsLoop (ctx : Context) (name : Text) : Bool := reaches name true ctx.labels

end Context

end JsonCompanion.Script
