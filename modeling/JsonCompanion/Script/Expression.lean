import JsonCompanion.Script.Group

/-!
# Primary expressions

* `primaryRule` parses a name, a literal, a list, an object, an expression in parentheses, a
  function, a class, or an operand behind a prefix operator.
* Words like `await` are operators or names, depending on the context: `awaitExpression`,
  `yieldExpression` and `asyncExpression` tell.
-/

namespace JsonCompanion.Script

/-! ### Names -/

/-- A name, or an arrow function whose only parameter it is; in the value of a field `arguments` is
refused. -/
def nameExpression (self : Rules) (ctx : Context) (here : Place) (word : Word) :
    Parser Operand := do
  let start ← place
  let kind := word.vocabulary
  passName ctx.tagged
  if ← sees "=>" then
    require (here.isOperand && here.canAssign && !here.constructs)
    arrowOfName self ctx start false word.name kind
  else
    require (!(ctx.inField && (← get).cursor.written == ("arguments" : Text)))
    require (kind != .let || (!ctx.strict && here.kind != .lexical))
    setAssignable (!(ctx.strict && kind = .restricted))
    return ⟨.name word.name, ← spanFrom start⟩

/-- `await` as an operator or as a name. -/
def awaitExpression (self : Rules) (ctx : Context) (here : Place) (name : Text) :
    Parser Operand := do
  let start ← place
  if ctx.inGroup then setShape { ← lastShape with awaits := true }
  require (!ctx.inStaticBlock)
  let operand ← nameOrArrow self ctx name
  let token ← peek
  let isName := match operand.expr with
    | .name _ => !token.beginsOperand
    | _ => true
  if isName then
    require (!ctx.inAsync && !ctx.isModule)
    return operand
  require (!ctx.inParameters)
  if ctx.inAsync || (ctx.isModule && ctx.isTop) then
    require (!here.constructs)
    let _ ← leftHand self ctx.ungrouped { canAssign := false }
    require (!(← sees "**"))
    setAssignable false
    return ⟨.runtime .await, ← spanFrom start⟩
  else
    require (!ctx.isModule)
    return operand

/-- `yield` as an operator, with an operand or without, or as a name. -/
def yieldExpression (self : Rules) (ctx : Context) (here : Place) (name : Text) :
    Parser Operand := do
  let start ← place
  if ctx.inGroup then setShape { ← lastShape with yields := true }
  if ctx.inGenerator then
    advance ctx.operand
    require (!ctx.inParameters && here.canAssign && !(← sees "?"))
    if !(← onNewLine) then
      let delegates ← accept ctx.operand "*"
      let token ← peek
      if delegates || token.beginsOperand || (← openWord?).isSome then
        let _ ← self.assignment ctx.ungrouped
    setAssignable false
    return ⟨.runtime .yield, ← spanFrom start⟩
  else
    require (!ctx.strict)
    nameOrArrow self ctx name

/-- The word behind `async` on the same line that is the parameter of an arrow function. -/
def asyncParameter? (ctx : Context) : Parser (Option Vocabulary) := do
  if ← onNewLine then return none
  return ((← word?).map Word.vocabulary).filter ctx.isIdentifier

/-- `async` in front of a function, of an arrow function, or as a name. -/
def asyncExpression (self : Rules) (ctx : Context) (here : Place) (name : Text) :
    Parser Operand := do
  let start ← place
  passName ctx
  if (← seesWord "function") && !(← onNewLine) then
    functionExpression self ctx true
    return ⟨.runtime .functionExpression, ← spanFrom start⟩
  match ← asyncParameter? ctx with
  | some word =>
    require (here.isOperand && here.canAssign && !here.constructs)
    asyncArrowOfName self ctx start word
  | none =>
    let callee := Expr.name name
    if (← sees "(") && !here.constructs then asyncCall self ctx here.canAssign start callee
    else if ← sees "=>" then
      require (here.canAssign && !here.constructs)
      arrowOfName self ctx start false name .async
    else
      setAssignable true
      return ⟨callee, ← spanFrom start⟩

/-! ### Prefix operators -/

/-- The prefix operator that a token is. -/
def prefixOp? (token : Token) : Option UnaryOp :=
  match token with
  | .mark _ =>
    if token.isMark "-" then some .minus
    else if token.isMark "+" then some .plus
    else if token.isOneOf ["!", "~"] then some .other
    else none
  | token =>
    if token.isWord "void" then some .void
    else if token.isWord "typeof" || token.isWord "delete" then some .other
    else none

/-- `delete` accepts no private member, and no name in strict code. -/
def admitsDelete (ctx : Context) : Expr → Bool
  | .name _ => !ctx.strict
  | .member _ (.privateName _) => !ctx.strict
  | _ => true

/-- An operand behind a prefix operator; the left side of a power is none. -/
def unaryExpression (self : Rules) (ctx : Context) (here : Place) (op : UnaryOp) :
    Parser Operand := do
  let start ← place
  require here.isOperand
  let deletes ← seesWord "delete"
  advance ctx.operand
  let operand ← leftHand self ctx { canAssign := false }
  require (!(← sees "**"))
  require (!deletes || admitsDelete ctx operand.expr)
  setAssignable false
  return ⟨.unary op operand.expr, ← spanFrom start⟩

/-- An operand behind an increment or a decrement. -/
def updateExpression (self : Rules) (ctx : Context) (here : Place) : Parser Operand := do
  let start ← place
  require (here.isOperand && !here.constructs)
  advance ctx.operand
  let _ ← leftHand self ctx.ungrouped { canAssign := false }
  require (← isAssignable)
  setAssignable false
  return ⟨.runtime .update, ← spanFrom start⟩

/-! ### Reserved words -/

/-- `super` in front of a call or a member. -/
def superExpression (ctx : Context) : Parser Expr := do
  advance ctx
  if ← sees "(" then
    require ctx.superCall
    setAssignable false
    return .superObject
  else
    require ((← seesOneOf [".", "["]) && ctx.superMember)
    setAssignable true
    return .superObject

/-- `meta` behind `import` and a point, in a module. -/
def importMeta (ctx : Context) : Parser Expr := do
  expect ctx "."
  require ctx.isModule
  expectWord ctx "meta"
  setAssignable false
  return .runtime .metaProperty

/-- The call that `import` stands in front of, from its parenthesis on. -/
def importCall (self : Rules) (ctx : Context) : Parser Expr := do
  expect ctx.operand "("
  let _ ← self.assignment ctx
  if ← accept ctx "," then
    if !(← sees ")") then
      let _ ← self.assignment ctx.withIn
    let _ ← accept ctx ","
  expect ctx ")"
  return .runtime .importCall

/-- `import` in front of a call or `.meta`. -/
def importExpression (self : Rules) (ctx : Context) (here : Place) : Parser Operand := do
  let start ← place
  advance ctx
  if ← sees "." then return ⟨← importMeta ctx, ← spanFrom start⟩
  else
    require (!here.constructs)
    let call ← importCall self ctx
    setAssignable false
    suffixes self ctx start ⟨call, ← spanFrom start⟩

/-- Passes members and templates behind the class that `new` constructs. -/
def constructedMembers (self : Rules) (ctx : Context) (callee : Expr) : Parser Expr :=
  iterate (fun (object, ctx) => do
    let next (object : Expr) : Turn (Expr × Context) Expr := .again (object, ctx.ungrouped)
    let token ← peek
    if token.isMark "." then return next (← namedMember ctx ctx object)
    else if token.isMark "[" then return next (← bracketMember self ctx object)
    else if token.isTemplate then
      setAssignable false
      let _ ← template self ctx.tagged
      return next (.runtime .taggedTemplate)
    else return .done object) self.budget (callee, ctx)

/-- `new` in front of a class with optional arguments, or `.target`. -/
def newExpression (self : Rules) (ctx : Context) : Parser Expr := do
  advance ctx.operand
  setAssignable false
  if ← accept ctx "." then
    require ctx.newTarget
    expectWord ctx "target"
    return .runtime .metaProperty
  else
    require (prefixOp? (← peek)).isNone
    let callee ← self.primary ctx { constructs := true, canAssign := false }
    require (!(← sees "?."))
    let callee ← constructedMembers self ctx.withIn callee.expr
    setAssignable false
    let list ← if ← sees "(" then arguments self ctx.withIn else pure []
    return .construction callee list

/-- A class as an expression. -/
def classExpression (self : Rules) (ctx : Context) : Parser Expr := do
  let _ ← self.classTail ctx false
  setAssignable false
  return .runtime .classExpression

/-- Passes a token that is a constant. -/
def constant (ctx : Context) (expr : Expr) : Parser Expr := do
  advance ctx
  setAssignable false
  return expr

/-- The expression that a reserved word begins. -/
def reservedExpression (self : Rules) (ctx : Context) (here : Place) (name : Text) :
    Parser Operand := do
  let start ← place
  let finish (expr : Expr) : Parser Operand := do return ⟨expr, ← spanFrom start⟩
  match prefixOp? (← peek) with
  | some op => unaryExpression self ctx here op
  | none =>
    if name == ("function" : Text) then
      functionExpression self ctx false
      finish (.runtime .functionExpression)
    else if name == ("class" : Text) then finish (← classExpression self ctx)
    else if name == ("this" : Text) then finish (← constant ctx .this)
    else if name == ("null" : Text) then finish (← constant ctx .null)
    else if name == ("true" : Text) then finish (← constant ctx (.bool true))
    else if name == ("false" : Text) then finish (← constant ctx (.bool false))
    else if name == ("new" : Text) then finish (← newExpression self ctx)
    else if name == ("super" : Text) then finish (← superExpression ctx)
    else if name == ("import" : Text) then importExpression self ctx here
    else failure

/-! ### Any primary expression -/

/-- A primary expression that begins with a word. -/
def wordExpression (self : Rules) (ctx : Context) (here : Place) (word : Word) : Parser Operand :=
  match word.vocabulary with
  | .reserved => if word.escaped then failure else reservedExpression self ctx here word.name
  | .await => awaitExpression self ctx here word.name
  | .yield => yieldExpression self ctx here word.name
  | .async => asyncExpression self ctx here word.name
  | .plain | .restricted | .let | .contextual | .futureName => nameExpression self ctx here word
  | .particle | .future =>
    if ctx.isIdentifier word.vocabulary then nameOrArrow self ctx word.name else failure
  | .disguised | .disguisedFuture => failure

/-- A list or an object that is an expression or the target of an assignment. -/
def collectionExpression (self : Rules) (ctx : Context) (here : Place) : Parser Operand := do
  let operand ← self.collection ctx ⟨.expression, false, here.canAssign⟩
  let shape ← lastShape
  require (!shape.repeatsPrototype && !shape.onlyPattern)
  return operand

/-- A primary expression that begins with punctuation. -/
def markExpression (self : Rules) (ctx : Context) (here : Place) : Parser Operand := do
  let start ← place
  let token ← peek
  if token.opensPattern then collectionExpression self ctx here
  else if token.isMark "(" then group self ctx here start
  else if token.updates then updateExpression self ctx here
  else match prefixOp? token with
    | some op => unaryExpression self ctx here op
    | none =>
      let expr ← if token.opensClass then classExpression self ctx
        else Expr.privateName <$> privateName ctx
      return ⟨expr, ← spanFrom start⟩

/-- A primary expression. -/
def primaryRule (self : Rules) (ctx : Context) (here : Place) : Parser Operand := do
  let start ← place
  let token ← peek
  match token with
  | .word word => wordExpression self ctx here word
  | .mark _ => markExpression self ctx here
  | _ =>
    let expr ← match token with
      | .template .. => template self ctx
      | .regex literal => constant ctx (.regex literal)
      | _ => constant ctx (← require? (literal? token))
    return ⟨expr, ← spanFrom start⟩

end JsonCompanion.Script
