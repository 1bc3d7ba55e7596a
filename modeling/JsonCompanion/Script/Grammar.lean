import JsonCompanion.Script.ModuleItem

/-!
# The grammar

* `rules` ties the parsers of all levels together; its argument bounds how deep they may nest.
* `Module.parse?` reads a module, `Expr.parse?` an expression and `Expr.parseWhole?` an expression
  that ends with the text; all bound the depth by the length of the text, which no nesting exceeds.
-/

namespace JsonCompanion.Script

/-- Parsers that may call each other to a given depth. -/
def rules : (depth : Nat) → Rules
  | 0 => {
      budget := 0
      primary := fun _ _ => failure
      assignment := fun _ => failure
      binary := fun _ _ _ _ _ => failure
      collection := fun _ _ => failure
      functionBody := fun _ _ => failure
      classTail := fun _ _ => failure
      statement := fun _ _ => failure }
  | depth + 1 => {
      budget := depth + 1
      primary := fun ctx here => primaryRule (rules depth) ctx here
      assignment := fun ctx => assignmentRule (rules depth) ctx
      binary := fun ctx start least beside first =>
        binaryRule (rules depth) ctx start least beside first
      collection := fun ctx reading => collectionRule (rules depth) ctx reading
      functionBody := fun ctx head => functionBodyRule (rules depth) ctx head
      classTail := fun ctx isDeclaration => classTailRule (rules depth) ctx isDeclaration
      statement := fun ctx alone => statementRule (rules depth) ctx alone }

/-- The depth that no nesting in a text exceeds: each token opens a few levels at most. -/
def depthFor (t : Text) : Nat := 4 * t.length + 16

/-- Reads the statements of a whole text, whose first token is read in a context. -/
def statementsOf? (item : Rules → Parser StatementBody) (ctx : Context) (t : Text) :
    Option (List Statement × Progress) := do
  let self := rules (depthFor t)
  (Script.statements self (item self)).run { cursor := ← Cursor.begin? ctx.operand t }

/-- Reads a module. -/
def Module.parse? (t : Text) : Option Module := do
  let (list, progress) ← statementsOf? (fun self => moduleItem self .module) .module t
  some ⟨list, progress.cursor.comments.reverse⟩

/-- Reads the text between parentheses as a script and gives the expression that it begins with. -/
def Expr.parse? (t : Text) : Option Expr := do
  let (list, _) ←
    statementsOf? (fun self => self.statement .script false) .script ("(" ++ t ++ ")")
  match list.head?.map Statement.body with
  | some (.expression expr) => some expr
  | _ => none

/-- Reads a whole text as one expression of a module. -/
def Expr.parseWhole? (t : Text) : Option Expr := do
  let self := rules (depthFor t)
  let cursor ← Cursor.begin? Context.module.operand t
  let (operand, progress) ← (self.expression .module).run { cursor }
  match progress.cursor.token with
  | .finish => some operand.expr
  | _ => none

end JsonCompanion.Script
