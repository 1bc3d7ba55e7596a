import JsonCompanion.Script.Expression

/-!
# Classes

* `classTailRule` parses a class from the word `class` on; all of it is strict code.
* `classMember` parses a member with its modifiers.  Which names a member may not have is said by
  `requireMemberName`.
-/

namespace JsonCompanion.Script

/-! ### Names of members -/

/-- The words and marks in front of the name of a member. -/
structure Modifiers where
  isStatic : Bool := false
  isAsync : Bool := false
  isGenerator : Bool := false
  accessor : Option Accessor := none

/-- A name follows the modifiers, not the end of the member. -/
def Modifiers.needName (modifiers : Modifiers) : Bool :=
  modifiers.isAsync || modifiers.isGenerator || modifiers.accessor.isSome

/-- The name of a member behind its modifiers, which may be private. -/
def memberKey (self : Rules) (ctx : Context) : Parser Key := do
  if ← sees "#" then return .privateName (← privateName ctx) else propertyKey self ctx

/-- The accessor that a word announces in front of a name. -/
def accessor? (name : Text) : Option Accessor :=
  if name == ("get" : Text) then some .getter
  else if name == ("set" : Text) then some .setter
  else none

/-- What a word at the beginning of a member is: a modifier of the name that follows, or the name
itself, in front of parentheses, a value or the end of the member. -/
def memberWord (ctx : Context) (word : Word) (isStatic : Bool) :
    Parser (Modifiers × Option Key) := do
  passName ctx
  let plain : Modifiers := { isStatic }
  let key := Key.label word.name
  let token ← peek
  if word.vocabulary = .disguisedFuture then require (token.isMark "(")
  if word.escaped || token.isMark "(" || token.endsField then return (plain, some key)
  else if word.name == ("async" : Text) && !(← onNewLine) then
    let isGenerator ← accept ctx "*"
    return ({ plain with isAsync := true, isGenerator }, none)
  else match accessor? word.name with
    | some half => return ({ plain with accessor := some half }, none)
    | none => return (plain, some key)

/-- The modifiers of a member, and its name where it is already passed or missing. -/
def memberHead (self : Rules) (ctx outer : Context) (isStatic : Bool) :
    Parser (Modifiers × Option Key) := do
  match ← peek with
  | .word word => memberWord ctx word isStatic
  | _ =>
    if ← accept ctx "*" then return ({ isStatic, isGenerator := true }, none)
    else if ← sees "#" then return ({ isStatic }, some (.privateName (← privateName ctx)))
    else if ← sees "=" then return ({ isStatic }, some .missing)
    else return ({ isStatic }, some (← propertyKey self outer))

/-- The word `static` is a modifier unless parentheses, a value or the end of the member follow. -/
def acceptStatic (ctx : Context) : Parser Bool := do
  if !(← seesWord "static") then return false
  let before ← get
  advance ctx
  let token ← peek
  if token.isMark "(" || token.isMark "=" || token.endsStatement then
    set before
    return false
  else return true

/-! ### Members -/

/-- The member is the constructor. -/
def Member.isConstructor (member : Member) : Bool :=
  match member.role with
  | .constructor .. => true
  | _ => false

/-- The name that the member is known by when its parameters or its value begin is allowed:
`constructor` is no accessor, generator, asynchronous method or field, and nothing static is called
`prototype`.  Tells whether it is `constructor`. -/
def requireMemberName (modifiers : Modifiers) (key : Key) : Parser Bool := do
  let written := (← get).cursor.written
  if key.isComputed then return false
  else if written == ("constructor" : Text) then
    require (!(← peek).endsField)
    require (modifiers.isStatic || !modifiers.needName || !(← sees "("))
    return true
  else
    let isPrivate := match key with
      | .privateName _ => true
      | _ => false
    require (isPrivate || !modifiers.isStatic || written != ("prototype" : Text))
    return false

/-- The role of a member with parameters. -/
def callableRole (self : Rules) (ctx : Context) (modifiers : Modifiers) (isConstructor : Bool) :
    Parser MemberRole := do
  let (patterns, effects) ← method self ctx {
    accessor := modifiers.accessor
    isAsync := modifiers.isAsync
    isGenerator := modifiers.isGenerator
    isConstructor }
  if isConstructor && !modifiers.isStatic then return .constructor patterns effects
  else match modifiers.accessor with
    | some .getter => return .getter
    | some .setter => return .setter
    | none => return .method

/-- The role of a field: its value, if it has one. -/
def fieldRole (self : Rules) (ctx : Context) (modifiers : Modifiers) (isConstructor : Bool) :
    Parser MemberRole := do
  require (!modifiers.isGenerator)
  if ← accept ctx.operand "=" then
    require (!(← seesWord "arguments"))
    let value ← self.assignment (ctx.field modifiers.isAsync isConstructor)
    endStatement ctx
    return .field (some value.expr)
  else
    endStatement ctx
    return .field none

/-- The statements of a static block, from its opening brace on. -/
def staticBlock (self : Rules) (ctx : Context) : Parser Unit := do
  let inside := ctx.staticBlock
  expect inside.operand "\x7b"
  iterate (fun _ => do
    if ← accept ctx "\x7d" then return .done ()
    let _ ← self.statement inside false
    return .again ()) self.budget ()

/-- A member of a class that is no static block. -/
def declaredMember (self : Rules) (ctx outer : Context) (start : Nat) (isStatic : Bool) :
    Parser Member := do
  let (modifiers, key?) ← memberHead self ctx outer isStatic
  let key ← match key? with
    | some key => pure key
    | none => memberKey self ctx.ungrouped
  let isConstructor ← requireMemberName modifiers key
  let isCallable ← sees "("
  let role ← if isCallable || modifiers.accessor.isSome then
      callableRole self ctx modifiers isConstructor
    else fieldRole self ctx modifiers isConstructor
  return ⟨start, isStatic, key, role⟩

/-- A member of a class, none for a static block. -/
def classMember (self : Rules) (ctx outer : Context) : Parser (Option Member) := do
  let start ← place
  let isStatic ← acceptStatic ctx
  let opensBlock ← sees "\x7b"
  if isStatic && opensBlock then
    staticBlock self ctx
    return none
  else return some (← declaredMember self ctx outer start isStatic)

/-- The members of a class, behind the opening brace up to the closing one; a class without a
superclass has one constructor at most. -/
def classMembers (self : Rules) (ctx outer : Context) : Parser (List Member) :=
  iterate (fun (taken : List Member) => do
    if ← sees "\x7d" then return .done taken.reverse
    if ← accept ctx ";" then return .again taken
    match ← classMember self ctx outer with
    | none => return .again taken
    | some member =>
      let isAnother := member.isConstructor && taken.any Member.isConstructor
      require (ctx.superCall || !isAnother)
      return .again (member :: taken)) self.budget []

/-! ### Classes -/

/-- The name of a class, if it has one. -/
def className? (ctx : Context) : Parser (Option Text) := do
  if ← seesWord "extends" then return none
  match ← openWord? with
  | some word =>
    let kind := word.vocabulary
    require (kind != .reserved && !kind.isRestricted)
    require (kind != .await || !(ctx.isModule || ctx.inAsync))
    passName ctx
    return some word.name
  | none => return none

/-- The superclass of a class, behind `extends`. -/
def superclass? (self : Rules) (ctx : Context) : Parser (Option Superclass) := do
  if ← acceptWord ctx.operand "extends" then
    let operand ← leftHand self ctx { canAssign := false, isOperand := false }
    return some ⟨operand.expr, operand.span⟩
  else return none

/-- A class from the word `class`, or the mark in its place, on. -/
def classTailRule (self : Rules) (around : Context) (isDeclaration : Bool) : Parser ClassBody := do
  let outer := { around with strict := true }
  require (← peek).opensClass
  advance outer
  let name ← className? outer
  let base ← superclass? self outer
  let ctx := { outer.withIn with superCall := base.isSome, inStaticBlock := false, inClass := true }
  let start ← place
  expect ctx.operand "\x7b"
  let members ← classMembers self ctx outer
  expect (if isDeclaration then ctx.operand else ctx) "\x7d"
  return ⟨name, base, members, ← spanFrom start⟩

end JsonCompanion.Script
