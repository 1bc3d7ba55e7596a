import JsonCompanion.Script.Parser

/-!
# Operations

What follows the first part of an expression.

* `suffixes` parses members, calls, templates, optional chains and increments behind an operand.
* `binaryRule` climbs the precedences of `binaryOperator?`.
* `assignmentRest` parses an assignment, operators or a condition behind an operand;
  `assignmentRule` is a whole expression.
-/

namespace JsonCompanion.Script

/-! ### Templates and arguments -/

/-- The template of chunks, the last one first; one without a text is known only when it runs. -/
def templateOf (chunks : List (Option Text)) (parts : List Expr) : Expr :=
  match chunks.reverse.mapM id with
  | some texts => .template texts parts.reverse
  | none => .runtime .template

/-- A template from its first part on. -/
def template (self : Rules) (ctx : Context) : Parser Expr :=
  iterate (fun (chunks, parts) => do
    match ← peek with
    | .template chunk last =>
      let chunks := chunk :: chunks
      if last then
        advance ctx
        if parts.isEmpty then setAssignable false
        return .done (templateOf chunks parts)
      advance ctx.substitution.operand
      let part ← self.expression ctx.substitution
      resumeTemplate ctx
      return .again (chunks, part.expr :: parts)
    | _ => failure) self.budget ([], [])

/-- An argument of a call. -/
def argument (self : Rules) (ctx : Context) : Parser Element := do
  if ← accept ctx.operand "..." then
    let operand ← self.assignment ctx.ungrouped
    setAssignable true
    return .spread operand.expr
  else return .item (← self.assignment ctx).expr

/-- The arguments of a call, from the opening parenthesis on. -/
def arguments (self : Rules) (ctx : Context) : Parser (List Element) := do
  expect ctx.operand "("
  if ← accept ctx.tagged ")" then return []
  let list ← commaList self.budget ctx.operand ")" (argument self ctx)
  expect ctx ")"
  return list

/-! ### Suffixes -/

/-- A private name, from its number sign on. -/
def privateName (ctx : Context) : Parser Text := do
  expect ctx "#"
  let name := (← get).cursor.written
  require (name != ("constructor" : Text))
  advance ctx
  return name

/-- The name behind a point. -/
def memberName (ctx : Context) : Parser Key := do
  match ← peek with
  | .word word =>
    passName ctx
    return .label word.name
  | _ => return .privateName (← privateName ctx)

/-- The expression between brackets of a member access. -/
def bracketKey (self : Rules) (ctx : Context) : Parser Key := do
  expect ctx.operand "["
  let key ← self.expression ctx
  expect ctx "]"
  return .computed key.expr

/-- The member behind a point, given the context behind its name. -/
def namedMember (ctx behind : Context) (object : Expr) : Parser Expr := do
  expect ctx "."
  setAssignable true
  return .member object (← memberName behind)

/-- The member between brackets. -/
def bracketMember (self : Rules) (ctx : Context) (object : Expr) : Parser Expr := do
  let key ← bracketKey self ctx
  setAssignable true
  return .member object key

/-- What follows a question mark with a point: a call, an expression in brackets, or a name. -/
def chainLink (self : Rules) (ctx : Context) (object : Expr) : Parser Expr := do
  expect ctx "?."
  setAssignable false
  let link ← if ← sees "[" then Expr.member object <$> bracketKey self ctx.ungrouped
    else if ← sees "(" then Expr.call object <$> arguments self ctx.ungrouped
    else Expr.member object <$> memberName ctx
  setAssignable false
  return link

/-- An operand with the suffixes read so far; `inChain` tells that one of them was optional. -/
structure Suffixed where
  operand : Operand
  inChain : Bool
  ctx : Context

/-- The member behind a point.  In a class the word `super`, or whatever is written like it, has no
private members. -/
def suffixMember (ctx : Context) (object : Expr) : Parser Expr := do
  let isSuper := (← get).cursor.written == ("super" : Text)
  let member ← namedMember ctx ctx.tagged object
  match member with
  | .member _ (.privateName _) => require (!(ctx.inClass && isSuper))
  | _ => pure ()
  return member

/-- A suffix of an operand, or the end of the suffixes. -/
def suffix (self : Rules) (start : Nat) (s : Suffixed) : Parser (Turn Suffixed Suffixed) := do
  let next (expr : Expr) (inChain : Bool) : Parser (Turn Suffixed Suffixed) := do
    return .again ⟨⟨expr, ← spanFrom start⟩, inChain, s.ctx.ungrouped⟩
  let token ← peek
  let object := s.operand.expr
  if token.updates && !(← onNewLine) then
    require (← isAssignable)
    advance s.ctx
    setAssignable false
    return .done { s with operand := ⟨.runtime .update, ← spanFrom start⟩ }
  else if token.isMark "." then next (← suffixMember s.ctx object) s.inChain
  else if token.isMark "[" then next (← bracketMember self s.ctx object) s.inChain
  else if token.isMark "(" then
    if (← get).endsCalls then
      modify fun p => { p with endsCalls := false }
      return .done s
    let list ← arguments self s.ctx
    setAssignable false
    next (.call object list) s.inChain
  else if token.isMark "?." then next (← chainLink self s.ctx object) true
  else if token.isTemplate then
    require (!s.inChain)
    setAssignable false
    let _ ← template self s.ctx.tagged
    next (.runtime .taggedTemplate) s.inChain
  else return .done s

/-- An operand with its suffixes. -/
def suffixes (self : Rules) (ctx : Context) (start : Nat) (operand : Operand) :
    Parser Operand := do
  let s ← iterate (suffix self start) self.budget ⟨operand, false, ctx.withIn⟩
  return if s.inChain then { s.operand with expr := .runtime .chain } else s.operand

/-- A primary expression with its suffixes. -/
def leftHand (self : Rules) (ctx : Context) (here : Place) : Parser Operand := do
  let start ← place
  suffixes self ctx start (← self.primary ctx here)

/-! ### Operators -/

/-- An operator that groups to the left. -/
def BinaryOperator.left (precedence : Nat) : BinaryOperator := ⟨precedence, false, .none, false⟩

/-- Operators by precedence. -/
def operatorGroups : List (List Text × BinaryOperator) :=
  [(["??"], ⟨1, true, .coalesce, false⟩), (["||"], ⟨2, true, .shortCircuit, false⟩),
   (["&&"], ⟨3, true, .shortCircuit, false⟩), (["|"], .left 4), (["^"], .left 5), (["&"], .left 6),
   (["==", "!=", "===", "!=="], .left 7), (["<", ">", "<=", ">="], .left 8),
   (["<<", ">>", ">>>"], .left 9), (["+", "-"], .left 10), (["*", "/", "%"], .left 11),
   (["**"], ⟨12, false, .none, true⟩)]

/-- The operator between operands that a token is. -/
def binaryOperator? (token : Token) : Option BinaryOperator :=
  match token with
  | .mark text => (operatorGroups.find? fun (texts, _) => texts.contains text).map Prod.snd
  | token => if token.isOperatorWord then some (.left 8) else none

/-- Two operators may stand side by side without parentheses. -/
def Mix.agrees : Mix → Mix → Bool
  | .coalesce, .shortCircuit => false
  | .shortCircuit, .coalesce => false
  | _, _ => true

/-- The precedence that decides whether an operator takes what stands left of it. -/
def BinaryOperator.reach (op : BinaryOperator) : Nat :=
  if op.rightAssociative then op.precedence + 1 else op.precedence

/-- Continues an operand with operators above the least precedence, next to the given operator. -/
def binaryRule (self : Rules) (ctx : Context) (start least : Nat) (beside : BinaryOperator)
    (first : Operand) : Parser Operand := do
  setAssignable false
  let result ← iterate (fun (left : Operand) => do
    let token ← peek
    match binaryOperator? token with
    | none => return .done left
    | some op =>
      require (op.mix.agrees beside.mix)
      if op.reach ≤ least || (token.isWord "in" && !ctx.inOperator) then return .done left
      advance ctx.operand
      let rightStart ← place
      let right ← leftHand self ctx { canAssign := false }
      let right ← self.binary ctx rightStart op.precedence op right
      let expr := if op.isLogical then Expr.runtime .logical
        else .binary token.spelling left.expr right.expr
      return .again ⟨expr, ← spanFrom start⟩) self.budget first
  require (!(← sees "="))
  return result

/-- Continues an operand with operators, if one is at hand. -/
def operators (self : Rules) (ctx : Context) (start : Nat) (left : Operand) : Parser Operand := do
  match binaryOperator? (← peek) with
  | some op => binaryRule self ctx start 0 op left
  | none => return left

/-- Continues a condition with its two branches, if a question mark is at hand. -/
def branches (self : Rules) (ctx : Context) (start : Nat) (condition : Operand) :
    Parser Operand := do
  if ← accept ctx.operand "?" then
    let value ← self.assignment ctx.withIn.ungrouped
    expect ctx.operand ":"
    setAssignable true
    let other ← self.assignment ctx.ungrouped
    setAssignable false
    return ⟨.conditional condition.expr value.expr other.expr, ← spanFrom start⟩
  else return condition

/-! ### Assignments -/

/-- The expression is a list. -/
def Expr.isArray : Expr → Bool
  | .array _ => true
  | _ => false

/-- An assignment to an operand, at its operator.  Whether it can be assigned itself is left as its
value leaves it. -/
def assignValue (self : Rules) (ctx : Context) (start : Nat) (target : Operand) :
    Parser Operand := do
  let plain ← sees "="
  advance ctx.operand
  let value ← self.assignment ctx
  return ⟨.assign plain target.expr value.expr, ← spanFrom start⟩

/-- An assignment to an operand, at its operator. -/
def assignTo (self : Rules) (ctx : Context) (start : Nat) (target : Operand) : Parser Operand := do
  let operand ← assignValue self ctx start target
  setAssignable false
  return operand

/-- Continues an operand with an assignment, with operators, or with a condition. -/
def assignmentRest (self : Rules) (ctx : Context) (start : Nat) (left : Operand) :
    Parser Operand := do
  if (← peek).assigns then
    require (← isAssignable)
    require (left.expr.assignsPlainly || (left.expr.isArray && !(← sees "=")))
    assignTo self ctx start left
  else branches self ctx start (← operators self ctx start left)

/-- An expression that is no list of several. -/
def assignmentRule (self : Rules) (ctx : Context) : Parser Operand := do
  let start ← place
  assignmentRest self ctx start (← leftHand self ctx {})

end JsonCompanion.Script
