import JsonCompanion.Script.Cursor

/-!
# Parsers

* `Shape` says what lists and objects can be read as besides expressions.
* `Progress` is the state of a parser, `Parser` a step that may fail.
* `iterate` repeats a step with a bound on its turns, `commaList` reads parts between commas.
* `Rules` are the parsers that a parser may call for nested code.
-/

namespace JsonCompanion.Script

/-- How lists and objects can be read: only as a pattern, never as one, never as one that binds
names. `repeatsPrototype` tells that an object sets its prototype twice, `awaits` and `yields` that
the operators of these names occur. -/
structure Shape where
  onlyPattern : Bool := false
  noPattern : Bool := false
  noBinding : Bool := false
  repeatsPrototype : Bool := false
  awaits : Bool := false
  yields : Bool := false

namespace Shape

/-- What holds of one of two shapes. -/
def join (a b : Shape) : Shape where
  onlyPattern := a.onlyPattern || b.onlyPattern
  noPattern := a.noPattern || b.noPattern
  noBinding := a.noBinding || b.noBinding
  repeatsPrototype := a.repeatsPrototype || b.repeatsPrototype
  awaits := a.awaits || b.awaits
  yields := a.yields || b.yields

/-- The operators in a shape. -/
def operators (shape : Shape) : Shape := { awaits := shape.awaits, yields := shape.yields }

/-- The operator that counts in a shape: `yield` goes before `await`. -/
def operator (shape : Shape) : Shape :=
  { awaits := shape.awaits && !shape.yields, yields := shape.yields }

/-- The shape of a place that can be assigned, or cannot, but never bound. -/
def ofPlace (assignable : Bool) : Shape :=
  if assignable then { noBinding := true } else { noPattern := true }

/-- The shape of a name that can be assigned, or cannot. -/
def ofName (assignable : Bool) : Shape := { noPattern := !assignable }

end Shape

/-- How far a script is read: the token at hand, whether the last expression can be assigned, and
the shape of the last list or object.  Both outlast the code they are about.  `endsCalls` tells that
a parenthesis on a new line begins no call.  `sawLegacy` and `sawRestricted` tell that an octal form
and a parameter that strict code refuses occurred since the statements of a function began. -/
structure Progress where
  cursor : Cursor
  assignable : Bool := true
  shape : Shape := {}
  endsCalls : Bool := false
  sawLegacy : Bool := false
  sawRestricted : Bool := false

/-- A parser moves on over the tokens that it accepts. -/
abbrev Parser := StateT Progress Option

/-- The condition holds. -/
def require (condition : Bool) : Parser Unit := if condition then pure () else failure

/-- What succeeds. -/
def require? {α : Type} (value : Option α) : Parser α :=
  match value with
  | some value => pure value
  | none => failure

/-! ### Tokens -/

/-- The token at hand. -/
def peek : Parser Token := do return (← get).cursor.token

/-- Where the token at hand begins. -/
def place : Parser Nat := do return (← get).cursor.start

/-- Where the last token ended. -/
def lastStop : Parser Nat := do return (← get).cursor.previousStop

/-- The span from some place up to the last token. -/
def spanFrom (start : Nat) : Parser Span := do return ⟨start, ← lastStop⟩

/-- A line ended before the token at hand. -/
def onNewLine : Parser Bool := do return (← get).cursor.lineBreak

/-- Moves to the next token, which is read in a context. -/
def advance (ctx : Context) : Parser Unit := do
  let cursor ← require? ((← get).cursor.next? ctx)
  modify fun p => { p with cursor, sawLegacy := p.sawLegacy || cursor.token.isLegacy }

/-- The punctuation is at hand. -/
def sees (mark : Text) : Parser Bool := do return (← peek).isMark mark

/-- One of the punctuation is at hand. -/
def seesOneOf (marks : List Text) : Parser Bool := do return (← peek).isOneOf marks

/-- The word is at hand. -/
def seesWord (word : Text) : Parser Bool := do return (← peek).isWord word

/-- Moves on if the punctuation is at hand. -/
def accept (ctx : Context) (mark : Text) : Parser Bool := do
  if ← sees mark then
    advance ctx
    return true
  else return false

/-- Moves on if the word is at hand. -/
def acceptWord (ctx : Context) (word : Text) : Parser Bool := do
  if ← seesWord word then
    advance ctx
    return true
  else return false

/-- Passes the punctuation. -/
def expect (ctx : Context) (mark : Text) : Parser Unit := do require (← accept ctx mark)

/-- Passes the word. -/
def expectWord (ctx : Context) (word : Text) : Parser Unit := do require (← acceptWord ctx word)

/-- Ends a statement: at a semicolon, or where one may be missing. -/
def endStatement (ctx : Context) : Parser Unit := do
  require ((← onNewLine) || (← peek).endsStatement)
  let _ ← accept ctx.operand ";"

/-- The word at hand, none for another token. -/
def word? : Parser (Option Word) := do
  match ← peek with
  | .word word => return some word
  | _ => return none

/-- The word at hand, if it is written as itself. -/
def openWord? : Parser (Option Word) := do
  return (← word?).filter fun word => word.vocabulary.isOpen

/-- Passes a word that is used as a name; behind `await` a slash begins a regular expression. -/
def passName (ctx : Context) : Parser Unit := do
  if ← seesWord "await" then advance ctx.operand else advance ctx

/-! ### Progress -/

/-- The last expression can be assigned. -/
def isAssignable : Parser Bool := do return (← get).assignable

/-- Says whether the last expression can be assigned. -/
def setAssignable (assignable : Bool) : Parser Unit := modify fun p => { p with assignable }

/-- The shape of the last list or object. -/
def lastShape : Parser Shape := do return (← get).shape

/-- Says what the shape of the last list or object is. -/
def setShape (shape : Shape) : Parser Unit := modify fun p => { p with shape }

/-- Reads on as a template at the brace that ends a substitution. -/
def resumeTemplate (ctx : Context) : Parser Unit := do
  require (← sees "\x7d")
  let cursor ← require? ((← get).cursor.resume? ctx)
  modify fun p => { p with cursor }

/-- Forgets the octal forms so far. -/
def forgetLegacy : Parser Unit := modify fun p => { p with sawLegacy := false }

/-- Remembers a parameter that strict code refuses. -/
def noteParameter (word : Vocabulary) : Parser Unit :=
  modify fun p => { p with sawRestricted := p.sawRestricted || word.isRestricted }

/-- Forgets the parameters so far. -/
def forgetParameters : Parser Unit := modify fun p => { p with sawRestricted := false }

/-! ### Repetition -/

/-- The outcome of a turn of a loop. -/
inductive Turn (σ α : Type)
  | again (state : σ)
  | done (value : α)

/-- Repeats a step until it is done; a loop that takes too many turns fails. -/
def iterate {σ α : Type} (step : σ → Parser (Turn σ α)) : (turns : Nat) → σ → Parser α
  | 0, _ => failure
  | turns + 1, state => do
    match ← step state with
    | .again state => iterate step turns state
    | .done value => return value

/-- Parts with commas between them up to a closing mark, which is not passed; a comma may stand
behind the last one. -/
def commaList {α : Type} (budget : Nat) (ctx : Context) (closing : Text) (part : Parser α) :
    Parser (List α) :=
  iterate (fun taken => do
    if ← sees closing then return .done taken.reverse
    let next ← part
    if ← sees closing then return .done (next :: taken).reverse
    expect ctx ","
    return .again (next :: taken)) budget []

/-! ### Rules -/

/-- A parsed expression with its place. -/
structure Operand where
  expr : Expr
  span : Span

/-- Which of the operators that must not be mixed an operator is. -/
inductive Mix
  | none
  | coalesce
  | shortCircuit
  deriving DecidableEq

/-- An operator between two operands. -/
structure BinaryOperator where
  precedence : Nat
  isLogical : Bool
  mix : Mix
  rightAssociative : Bool

/-- Where a primary expression stands: what its names are met for, whether it is what `new`
constructs, whether it may be an arrow function or an assignment, and whether a prefix operator may
be in front. -/
structure Place where
  kind : BindingKind := .expression
  constructs : Bool := false
  canAssign : Bool := true
  isOperand : Bool := true

/-- How a list or an object is read: what its names are met for, whether it is a pattern for sure,
and whether a value may be assigned to it. -/
structure Reading where
  kind : BindingKind
  isPattern : Bool
  takesValue : Bool

/-- What the body of a function has to know: whether the parameters are mere names, whether strict
code refuses the name of the function, and whether an operand may follow the body. -/
structure Head where
  isSimple : Bool := true
  isRestricted : Bool := false
  precedesOperand : Bool := false

/-- The parsers for nested code, and the budget of turns in a list. -/
structure Rules where
  budget : Nat
  primary : Context → Place → Parser Operand
  assignment : Context → Parser Operand
  binary : Context → (start : Nat) → (least : Nat) → BinaryOperator → Operand → Parser Operand
  collection : Context → Reading → Parser Operand
  functionBody : Context → Head → Parser (List Effect)
  classTail : Context → (isDeclaration : Bool) → Parser ClassBody
  statement : Context → (alone : Bool) → Parser StatementBody

/-- Continues with expressions behind commas, if there are any; the last one counts. -/
def Rules.sequence (self : Rules) (ctx : Context) (start : Nat) (first : Operand) :
    Parser Operand :=
  iterate (fun current => do
    if ← accept ctx.operand "," then
      let _ ← self.assignment ctx
      return .again ⟨.runtime .sequence, ← spanFrom start⟩
    else return .done current) self.budget first

/-- An expression, which may be a list of several. -/
def Rules.expression (self : Rules) (ctx : Context) : Parser Operand := do
  let start ← place
  self.sequence ctx start (← self.assignment ctx)

end JsonCompanion.Script
