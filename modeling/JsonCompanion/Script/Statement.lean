import JsonCompanion.Script.Class

/-!
# Statements

* `statementRule` parses any statement but an import or an export.  A statement that stands alone,
  as the branch of a condition or the body of a loop, declares nothing but variables of the whole
  function.
* `functionBodyRule` parses the statements of a function, of which a first string may make the code
  strict, and keeps the expressions among them.
-/

namespace JsonCompanion.Script

/-! ### Declarations -/

/-- The words that declare variables. -/
inductive VariableKind
  | var
  | let
  | const
  deriving DecidableEq

/-- What the names of variables are met for. -/
def VariableKind.binding : VariableKind → BindingKind
  | .var => .variable
  | _ => .lexical

/-- A loop over the values or keys of a collection continues behind its target. -/
def seesLoopOver : Parser Bool := do return (← seesWord "of") || (← seesWord "in")

/-- A declared variable, with its value if it has one.  In a loop over a collection constants and
patterns need no value, and hardly any variable may have one. -/
def declarator (self : Rules) (ctx : Context) (kind : VariableKind) (inLoop : Bool) :
    Parser Declarator := do
  let isPattern := (← peek).opensPattern
  let pattern ← bindingPattern self ctx kind.binding
  if ← accept ctx.operand "=" then
    let value ← self.assignment ctx
    if inLoop then
      require (!(← seesWord "of"))
      require (!(← seesWord "in") || (kind = .var && !isPattern && !ctx.strict))
    return ⟨pattern, some value.expr⟩
  else
    require ((kind != .const && !isPattern) || (inLoop && (← seesLoopOver)))
    return ⟨pattern, none⟩

/-- Declared variables with commas between them; a loop over a collection has only one. -/
def declarators (self : Rules) (ctx : Context) (kind : VariableKind) (inLoop : Bool) :
    Parser (List Declarator) := do
  let list ← iterate (fun taken => do
    let next ← declarator self ctx kind inLoop
    if ← accept ctx.operand "," then return .again (next :: taken)
    return .done (next :: taken).reverse) self.budget []
  require (!inLoop || list.length == 1 || !(← seesLoopOver))
  return list

/-- A declaration of variables behind its first word. -/
def variableDeclaration (self : Rules) (ctx : Context) (kind : VariableKind) :
    Parser Declaration := do
  let list ← declarators self ctx kind false
  endStatement ctx
  return .declarators list

/-- A function declaration, at the word `function`. -/
def functionDeclaration (self : Rules) (ctx : Context) (isAsync nameless : Bool) :
    Parser (Option Text) := do
  expectWord ctx "function"
  let isGenerator ← accept ctx "*"
  let inside := ctx.function isAsync isGenerator
  if nameless && (← sees "(") then
    functionTail self inside none true
    return none
  else
    let word ← require? (← word?)
    let name ← bindingName ctx .variable
    functionTail self inside (some word) true
    return some name

/-- An asynchronous function stands at the cursor. -/
def seesAsyncFunction (ctx : Context) : Parser Bool := do
  if !(← seesWord "async") then return false
  let next ← require? ((← get).cursor.next? ctx)
  return next.token.isWord "function" && !next.lineBreak

/-- A class declaration, which has a name. -/
def classDeclaration (self : Rules) (ctx : Context) : Parser Declaration := do
  let body ← self.classTail ctx true
  require body.name.isSome
  return .class body

/-- A declaration of a function or a class, if one stands at the cursor. -/
def declaration? (self : Rules) (ctx : Context) : Parser (Option Declaration) := do
  if ← seesWord "function" then
    return some (.function (← functionDeclaration self ctx false false))
  else if ← seesAsyncFunction ctx then
    advance ctx
    return some (.function (← functionDeclaration self ctx true false))
  else if ← seesWord "class" then return some (← classDeclaration self ctx)
  else return none

/-! ### Compound statements -/

/-- Statements up to a closing brace, behind the opening one. -/
def blockTail (self : Rules) (ctx : Context) : Parser Unit :=
  iterate (fun _ => do
    if ← accept ctx.operand "\x7d" then return .done ()
    let _ ← self.statement ctx.nested false
    return .again ()) self.budget ()

/-- Statements between braces. -/
def block (self : Rules) (ctx : Context) : Parser Unit := do
  expect ctx.operand "\x7b"
  blockTail self ctx

/-- A statement that stands alone. -/
def loneStatement (self : Rules) (ctx : Context) : Parser Unit := do
  let _ ← self.statement ctx true

/-- A condition between parentheses. -/
def condition (self : Rules) (ctx : Context) : Parser Unit := do
  expect ctx.operand "("
  let _ ← self.expression ctx
  expect ctx.operand ")"

/-- `if` behind the word. -/
def ifStatement (self : Rules) (ctx : Context) : Parser Unit := do
  condition self ctx
  loneStatement self ctx.nested
  if ← acceptWord ctx.operand "else" then loneStatement self ctx.nested

/-- `while` behind the word. -/
def whileStatement (self : Rules) (ctx : Context) : Parser Unit := do
  condition self ctx
  loneStatement self ctx.loop

/-- `do` behind the word; a semicolon at its end may be missing. -/
def doStatement (self : Rules) (ctx : Context) : Parser Unit := do
  loneStatement self ctx.loop
  expectWord ctx "while"
  condition self ctx
  let _ ← accept ctx.operand ";"

/-! ### Loops with a head -/

/-- The first part of the head of a loop: variables, or an expression with its shape and its
place. -/
inductive LoopHead
  | declared
  | target (start : Nat) (operand : Operand) (shape : Shape)

/-- The head of a loop that begins with `let`, which may be a name outside strict code. -/
def letHead (self : Rules) (ctx : Context) : Parser LoopHead := do
  let start ← place
  passName ctx
  let target : Operand := ⟨.name "let", ← spanFrom start⟩
  let declares := (← openWord?).isSome || (← peek).opensPattern
  if declares && !(← seesWord "in") then
    let _ ← declarators self ctx.withoutIn .let true
    setAssignable true
    return .declared
  require (!ctx.strict)
  setAssignable true
  if ← seesWord "in" then return .target start target {}
  else
    let operand ← suffixes self ctx start target
    require (!(← seesWord "of"))
    return .target start operand {}

/-- The first part of the head of a loop. -/
def loopHead (self : Rules) (ctx : Context) : Parser LoopHead := do
  let start ← place
  let declare (kind : VariableKind) : Parser LoopHead := do
    advance ctx
    let _ ← declarators self ctx.withoutIn kind true
    setAssignable true
    return .declared
  if ← seesWord "let" then letHead self ctx
  else if ← seesWord "var" then declare .var
  else if ← seesWord "const" then declare .const
  else if (← peek).opensPattern then
    let first ← self.collection ctx ⟨.expression, false, false⟩
    let shape ← lastShape
    require (!shape.repeatsPrototype)
    setAssignable (!shape.noPattern)
    return .target start (← suffixes self ctx.withoutIn start first) shape
  else return .target start (← leftHand self ctx.withoutIn {}) {}

/-- The end of the head of a loop over a collection, and the body. -/
def loopOver (self : Rules) (ctx : Context) (isAwait : Bool) (head : LoopHead) : Parser Unit := do
  require (← isAssignable)
  match head with
  | .target _ operand _ => require operand.expr.assignsPlainly
  | .declared => pure ()
  if ← acceptWord ctx.operand "of" then
    let _ ← self.assignment ctx
  else
    require (!isAwait)
    expectWord ctx.operand "in"
    let _ ← self.expression ctx
  expect ctx.operand ")"
  loneStatement self ctx.loop

/-- The second and the third part of the head of a loop with a counter, and the body. -/
def loopCounting (self : Rules) (ctx : Context) : Parser Unit := do
  expect ctx.operand ";"
  if !(← sees ";") then
    let _ ← self.expression ctx
  expect ctx.operand ";"
  if !(← sees ")") then
    let _ ← self.expression ctx
  expect ctx.operand ")"
  loneStatement self ctx.loop

/-- `for` behind the word. -/
def forStatement (self : Rules) (ctx : Context) : Parser Unit := do
  let mayAwait := ctx.inAsync || (ctx.isModule && ctx.isTop)
  let isAwait ← if mayAwait then acceptWord ctx "await" else pure false
  expect ctx.operand "("
  if ← sees ";" then
    require (!isAwait)
    loopCounting self ctx
  else
    let head ← loopHead self ctx
    if ← seesLoopOver then loopOver self ctx isAwait head
    else
      require (!isAwait)
      match head with
      | .target start operand shape =>
        require (!shape.onlyPattern || (← sees "="))
        let operand ← assignmentRest self ctx.withoutIn start operand
        let _ ← self.sequence ctx start operand
      | .declared => pure ()
      loopCounting self ctx

/-! ### Jumps -/

/-- The label behind `break` or `continue`, on the same line. -/
def jumpLabel? (ctx : Context) : Parser (Option Text) := do
  if ← onNewLine then return none
  match ← openWord? with
  | some word =>
    passName ctx.operand
    return some word.name
  | none => return none

/-- `break` behind the word: the label exists, or there is a loop or `switch` around. -/
def breakStatement (ctx : Context) : Parser Unit := do
  match ← jumpLabel? ctx with
  | some name => require (ctx.knowsLabel name)
  | none => require (ctx.inLoop || ctx.inSwitch)
  endStatement ctx

/-- `continue` behind the word, inside a loop; a label is that of a loop. -/
def continueStatement (ctx : Context) : Parser Unit := do
  require ctx.inLoop
  match ← jumpLabel? ctx with
  | some name => require (ctx.knowsLoop name)
  | none => pure ()
  endStatement ctx

/-- `return` behind the word. -/
def returnStatement (self : Rules) (ctx : Context) : Parser Unit := do
  require ctx.returns
  if !(← onNewLine) && !(← peek).endsStatement then
    let _ ← self.expression ctx
  endStatement ctx

/-- `throw` behind the word. -/
def throwStatement (self : Rules) (ctx : Context) : Parser Unit := do
  require (!(← onNewLine))
  let _ ← self.expression ctx
  endStatement ctx

/-! ### Cases and exceptions -/

/-- The statements of a case, up to the next one or the closing brace. -/
def caseStatements (self : Rules) (ctx : Context) : Parser Unit :=
  iterate (fun _ => do
    if (← sees "\x7d") || (← seesWord "case") || (← seesWord "default") then return .done ()
    let _ ← self.statement ctx false
    return .again ()) self.budget ()

/-- `switch` behind the word; at most one case is the default. -/
def switchStatement (self : Rules) (ctx : Context) : Parser Unit := do
  condition self ctx
  expect ctx "\x7b"
  iterate (fun hasDefault => do
    if ← accept ctx.operand "\x7d" then return .done ()
    let isDefault ← acceptWord ctx "default"
    if isDefault then require (!hasDefault)
    else
      expectWord ctx.operand "case"
      let _ ← self.expression ctx
    expect ctx.operand ":"
    caseStatements self ctx.cases
    return .again (hasDefault || isDefault)) self.budget false

/-- `try` behind the word. -/
def tryStatement (self : Rules) (ctx : Context) : Parser Unit := do
  block self ctx.nested
  let caught ← acceptWord ctx "catch"
  if caught then
    if ← accept ctx "(" then
      let _ ← bindingPattern self ctx .variable
      expect ctx ")"
    block self ctx.nested
  if ← acceptWord ctx "finally" then block self ctx.nested
  else require caught

/-- `with` behind the word, in code that is not strict. -/
def withStatement (self : Rules) (ctx : Context) : Parser Unit := do
  require (!ctx.strict)
  condition self ctx
  loneStatement self ctx

/-! ### Expressions as statements -/

/-- A labelled statement, at the colon. -/
def labelled (self : Rules) (ctx : Context) (name : Text) (word : Vocabulary) :
    Parser StatementBody := do
  require (ctx.admitsLabel word)
  let inside ← require? (ctx.labelled? name)
  expect ctx.operand ":"
  loneStatement self inside
  return .other

/-- The end of an expression that is a statement. -/
def endExpression (self : Rules) (ctx : Context) (start : Nat) (operand : Operand) :
    Parser StatementBody := do
  let operand ← self.sequence ctx start operand
  endStatement ctx
  return .expression operand.expr

/-- An expression as a statement, behind its first part. -/
def expressionRest (self : Rules) (ctx : Context) (start : Nat) (first : Operand) :
    Parser StatementBody := do
  let operand ← suffixes self ctx start first
  endExpression self ctx start (← assignmentRest self ctx start operand)

/-- The first part of a statement that begins with an expression.  Outside strict code `let` may be
a name, but not in front of a bracket. -/
def firstOperand (self : Rules) (ctx : Context) : Parser Operand := do
  let start ← place
  if ← seesWord "let" then
    passName ctx
    require (!ctx.strict && !(← sees "["))
    return ⟨.name "let", ← spanFrom start⟩
  else self.primary ctx {}

/-- A statement that begins with an expression: a labelled statement or the expression itself. -/
def expressionStatement (self : Rules) (ctx : Context) : Parser StatementBody := do
  let start ← place
  let word ← openWord?
  let first ← firstOperand self ctx
  match word, ← sees ":" with
  | some word, true => labelled self ctx word.name word.vocabulary
  | _, _ => expressionRest self ctx start first

/-- A statement that begins with `let`: a declaration, or outside strict code an expression. -/
def letStatement (self : Rules) (ctx : Context) : Parser StatementBody := do
  let start ← place
  passName ctx
  if (← openWord?).isSome || (← peek).opensPattern then
    return .declaration (← variableDeclaration self ctx .let)
  else
    setAssignable true
    require (!ctx.strict)
    if ← sees ":" then labelled self { ctx with labels := [] } "let" .let
    else if ← sees "=>" then
      endExpression self ctx start (← arrowFunction self ctx start false true [.item (.name "let")])
    else expressionRest self ctx start ⟨.name "let", ← spanFrom start⟩

/-- The first part of a statement that begins with the name `async`: a call or an arrow function
from its parameters on, or the name itself. -/
def asyncOperand (self : Rules) (ctx : Context) (start : Nat) : Parser Operand := do
  let callee := Expr.name "async"
  if ← sees "(" then asyncCall self ctx true start callee
  else
    let first ← if ← sees "=>" then arrowOfName self ctx start false "async" .async
      else pure ⟨callee, ← spanFrom start⟩
    setAssignable true
    return first

/-- A statement that begins with `async`: a function declaration, unless it stands alone, an arrow
function, or any expression. -/
def asyncStatement (self : Rules) (ctx : Context) (alone : Bool) : Parser StatementBody := do
  let start ← place
  if ← seesAsyncFunction ctx then
    require (!alone)
    advance ctx
    return .declaration (.function (← functionDeclaration self ctx true false))
  passName ctx
  if ← sees ":" then return ← labelled self ctx "async" .async
  match ← asyncParameter? ctx with
  | some word => endExpression self ctx start (← asyncArrowOfName self ctx start word)
  | none =>
    let operand ← suffixes self ctx start (← asyncOperand self ctx start)
    let operand ← assignmentRest self ctx start operand
    setAssignable true
    endExpression self ctx start operand

/-- A statement that begins with `import`: a call, which no operator follows, or `import.meta`. -/
def importStatement (self : Rules) (ctx : Context) : Parser StatementBody := do
  let start ← place
  advance ctx
  if ← sees "." then
    let value ← importMeta ctx
    expressionRest self ctx start ⟨value, ← spanFrom start⟩
  else
    let call ← importCall self ctx
    let operand ← suffixes self ctx start ⟨call, ← spanFrom start⟩
    endExpression self ctx start operand

/-! ### Any statement -/

/-- Behind a word, a statement that the library does not look at, with the context of the token that
follows the word. -/
def keyword? (self : Rules) (ctx : Context) (name : Text) : Option (Context × Parser Unit) :=
  if name == ("if" : Text) then some (ctx, ifStatement self ctx)
  else if name == ("for" : Text) then some (ctx, forStatement self ctx)
  else if name == ("while" : Text) then some (ctx, whileStatement self ctx)
  else if name == ("do" : Text) then some (ctx.operand, doStatement self ctx)
  else if name == ("break" : Text) then some (ctx.operand, breakStatement ctx)
  else if name == ("continue" : Text) then some (ctx, continueStatement ctx)
  else if name == ("return" : Text) then some (ctx.operand, returnStatement self ctx)
  else if name == ("throw" : Text) then some (ctx.operand, throwStatement self ctx)
  else if name == ("switch" : Text) then some (ctx, switchStatement self ctx)
  else if name == ("try" : Text) then some (ctx, tryStatement self ctx)
  else if name == ("with" : Text) then some (ctx, withStatement self ctx)
  else if name == ("debugger" : Text) then some (ctx.operand, endStatement ctx)
  else none

/-- A statement that begins with a word and may stand alone. -/
def wordStatement (self : Rules) (ctx : Context) (alone : Bool) (name : Text) :
    Parser StatementBody := do
  match keyword? self ctx name with
  | some (behind, rest) =>
    advance behind
    rest
    return .other
  | none =>
    if name == ("var" : Text) then
      advance ctx
      return .declaration (← variableDeclaration self ctx .var)
    else if name == ("async" : Text) then asyncStatement self ctx alone
    else
      require (name != ("function" : Text) && name != ("class" : Text))
      expressionStatement self ctx

/-- A statement that begins with a word and does not stand alone. -/
def listedStatement (self : Rules) (ctx : Context) (name : Text) : Parser StatementBody := do
  if name == ("let" : Text) then letStatement self ctx
  else if name == ("const" : Text) then
    advance ctx
    return .declaration (← variableDeclaration self ctx .const)
  else if name == ("import" : Text) then importStatement self ctx
  else match ← declaration? self ctx with
    | some declaration => return .declaration declaration
    | none => wordStatement self ctx false name

/-- Any statement but an import or an export. -/
def statementRule (self : Rules) (ctx : Context) (alone : Bool) : Parser StatementBody := do
  let token ← peek
  match token with
  | .word word =>
    if word.escaped then expressionStatement self ctx
    else if alone then wordStatement self ctx alone word.name
    else listedStatement self ctx word.name
  | _ =>
    if ← accept ctx.operand ";" then return .other
    else if ← accept ctx.operand "\x7b" then
      blockTail self ctx
      return .other
    else if token.opensClass && !alone then
      return .declaration (← classDeclaration self ctx)
    else expressionStatement self ctx

/-! ### Function bodies -/

/-- The token is a string that makes code strict when it stands alone. -/
def Cursor.isStrictDirective (c : Cursor) : Bool :=
  match c.token with
  | .string value _ => value == ("use strict" : Text) && c.stop == c.start + 12
  | _ => false

/-- The strings in front of the statements of a function: the expressions they begin, the last one
first, and the context behind them. -/
structure Directives where
  effects : List Effect
  ctx : Context

/-- Passes the strings in front of the statements of a function.  One of them may make the code
strict; the parameters have to be simple then, and no octal form may stand in front. -/
def directives (self : Rules) (ctx : Context) (head : Head) : Parser Directives :=
  iterate (fun (s : Directives) => do
    let cursor := (← get).cursor
    match cursor.token with
    | .string value _ =>
      advance s.ctx
      setAssignable false
      let stands := (← onNewLine) || (← peek).endsStatement
      let makesStrict := cursor.isStrictDirective && stands
      require (!makesStrict || (head.isSimple && !(← get).sawLegacy))
      let ctx := { s.ctx with strict := s.ctx.strict || makesStrict }
      let start := cursor.start
      match ← expressionRest self ctx start ⟨.string value, ← spanFrom start⟩ with
      | .expression expr => return .again ⟨⟨start, expr⟩ :: s.effects, ctx⟩
      | _ => failure
    | _ => return .done s) self.budget ⟨[], ctx⟩

/-- The body of a function between braces.  Strict code refuses some names of the function and of
parameters, unless the body is empty. -/
def functionBodyRule (self : Rules) (ctx : Context) (head : Head) : Parser (List Effect) := do
  expect ctx.operand "\x7b"
  let isEmpty ← sees "\x7d"
  let s ← directives self ctx head
  let isRestricted := head.isRestricted || (← get).sawRestricted
  require (isEmpty || !s.ctx.strict || !isRestricted)
  forgetLegacy
  forgetParameters
  setShape { ← lastShape with yields := false }
  let effects ← iterate (fun effects => do
    if ← sees "\x7d" then return .done effects.reverse
    let start ← place
    match ← self.statement s.ctx false with
    | .expression value => return .again (⟨start, value⟩ :: effects)
    | _ => return .again effects) self.budget s.effects
  expect (if head.precedesOperand then s.ctx.operand else s.ctx) "\x7d"
  forgetLegacy
  require (!(← sees "="))
  return effects

end JsonCompanion.Script
