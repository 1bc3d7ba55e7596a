import JsonCompanion.Script.Statement

/-!
# Imports and exports

* `importDeclaration` and `exportDeclaration` parse the statements that only a module has.
* `moduleItem` parses any statement of a module.
-/

namespace JsonCompanion.Script

/-! ### Names and sources -/

/-- The name of an export: a word, or a string without lone surrogates. -/
def moduleName (ctx : Context) : Parser ModuleName := do
  match ← peek with
  | .string value _ =>
    require value.isWellFormed
    advance ctx
    setAssignable false
    return ⟨value, true⟩
  | _ =>
    let word ← require? (← openWord?)
    passName ctx
    return ⟨word.name, false⟩

/-- The specifier of a module. -/
def moduleSpecifier (ctx : Context) : Parser Text := do
  match ← peek with
  | .string value _ =>
    advance ctx
    setAssignable false
    return value
  | _ => failure

/-- An attribute of an import: a key, which is a word or a text, and a text. -/
def importAttribute (ctx : Context) : Parser Text := do
  let key := (← get).cursor.written
  match ← peek with
  | .string .. =>
    let _ ← moduleSpecifier ctx
  | _ =>
    require (← openWord?).isSome
    passName ctx
  expect ctx ":"
  let _ ← moduleSpecifier ctx
  return key

/-- The attributes behind the specifier of a module, each once. -/
def importAttributes (self : Rules) (ctx : Context) : Parser Unit := do
  if ← acceptWord ctx "with" then
    expect ctx "\x7b"
    let keys ← commaList self.budget ctx "\x7d" (importAttribute ctx)
    expect ctx "\x7d"
    require (decide keys.Nodup)

/-- The specifier of a module with its attributes at the end of a declaration. -/
def moduleSource (self : Rules) (ctx : Context) : Parser Text := do
  let source ← moduleSpecifier ctx
  importAttributes self ctx
  endStatement ctx
  return source

/-! ### Imports -/

/-- The name of a namespace or of a default import. -/
def importName (ctx : Context) : Parser Text := do
  let word ← require? (← word?)
  require (ctx.isIdentifier word.vocabulary && word.vocabulary != .restricted)
  advance ctx
  return word.name

/-- The name that an import binds behind `as`: a word, or what was last written where punctuation
other than a comma or a template takes the place of one. -/
def importedAs (ctx : Context) : Parser Text := do
  let name := (← get).cursor.written
  match ← peek with
  | .word word =>
    require (word.vocabulary = .disguisedFuture || ctx.admitsBinding .lexical word.vocabulary)
    passName ctx
  | .mark mark =>
    require (mark != ("," : Text))
    advance ctx
  | .template .. => advance ctx
  | _ => failure
  return name

/-- A name in braces of an import; a word that is no identifier needs another name to be bound. -/
def importSpecifier (ctx : Context) : Parser ImportSpecifier := do
  let word ← word?
  let imported ← moduleName ctx
  if ← acceptWord ctx "as" then return .named imported (← importedAs ctx)
  else
    let word ← require? word
    require (ctx.admitsBinding .lexical word.vocabulary)
    return .named imported imported.name

/-- The namespace of an import, at the asterisk. -/
def namespaceSpecifier (ctx : Context) : Parser ImportSpecifier := do
  expect ctx "*"
  expectWord ctx "as"
  return .namespace (← importName ctx)

/-- Named imports in braces. -/
def namedSpecifiers (self : Rules) (ctx : Context) : Parser (List ImportSpecifier) := do
  expect ctx "\x7b"
  let list ← commaList self.budget ctx "\x7d" (importSpecifier ctx)
  expect ctx "\x7d"
  return list

/-- Everything between `import` and `from`. -/
def importClause (self : Rules) (ctx : Context) : Parser (List ImportSpecifier) := do
  if ← sees "*" then return [← namespaceSpecifier ctx]
  else if ← sees "\x7b" then namedSpecifiers self ctx
  else
    let first := ImportSpecifier.byDefault (← importName ctx)
    if ← accept ctx "," then
      if ← sees "*" then return [first, ← namespaceSpecifier ctx]
      else return first :: (← namedSpecifiers self ctx)
    else return [first]

/-- An import declaration, at the word `import`. -/
def importDeclaration (self : Rules) (ctx : Context) : Parser StatementBody := do
  expectWord ctx "import"
  match ← peek with
  | .string .. => return .importNames [] (← moduleSource self ctx)
  | _ =>
    let specifiers ← importClause self ctx
    expectWord ctx "from"
    return .importNames specifiers (← moduleSource self ctx)

/-! ### Exports -/

/-- A name in an export list. -/
def exportSpecifier (ctx : Context) : Parser ExportSpecifier := do
  let inner ← moduleName ctx
  if ← acceptWord ctx "as" then return ⟨inner, ← moduleName ctx⟩
  else return ⟨inner, inner⟩

/-- An export list, at its opening brace; without a source it names no strings. -/
def exportList (self : Rules) (ctx : Context) : Parser StatementBody := do
  expect ctx "\x7b"
  let specifiers ← commaList self.budget ctx "\x7d" (exportSpecifier ctx)
  expect ctx "\x7d"
  if ← acceptWord ctx "from" then return .exportNames specifiers (some (← moduleSource self ctx))
  else
    require (specifiers.all fun s => !s.inner.isString)
    endStatement ctx
    return .exportNames specifiers none

/-- Exports everything of another module, at the asterisk. -/
def exportEverything (self : Rules) (ctx : Context) : Parser StatementBody := do
  expect ctx "*"
  if ← acceptWord ctx "as" then
    let _ ← moduleName ctx
  expectWord ctx "from"
  let _ ← moduleSource self ctx
  return .exportAll

/-- A default export that begins with `async`: a function, a call, an arrow function, or the mere
name, behind which the declaration ends at once. -/
def asyncDefault (self : Rules) (ctx : Context) : Parser StatementBody := do
  let start ← place
  if ← seesAsyncFunction ctx then
    advance ctx
    return .exportDefault (.function (← functionDeclaration self ctx true true))
  passName ctx
  let callee := Expr.name "async"
  if ← onNewLine then return .exportDefault (.expression callee)
  else if ← sees "(" then
    let operand ← suffixes self ctx start (← asyncCall self ctx true start callee)
    return .exportDefault (.expression (← assignmentRest self ctx start operand).expr)
  else if (← openWord?).isSome then
    let name := (← peek).spelling
    passName ctx
    let operand ← arrowFunction self ctx start true true [.item (.name name)]
    return .exportDefault (.expression operand.expr)
  else return .exportDefault (.expression callee)

/-- The default export, behind `default`. -/
def defaultExport (self : Rules) (ctx : Context) : Parser StatementBody := do
  if ← seesWord "function" then
    return .exportDefault (.function (← functionDeclaration self ctx false true))
  else if ← seesWord "async" then asyncDefault self ctx
  else if (← peek).opensClass then return .exportDefault (.class (← self.classTail ctx true))
  else
    let value ← self.assignment ctx
    endStatement ctx
    return .exportDefault (.expression value.expr)

/-- The kind of variables that the word at hand declares. -/
def variableKind? : Parser (Option VariableKind) := do
  if ← seesWord "var" then return some .var
  else if ← seesWord "let" then return some .let
  else if ← seesWord "const" then return some .const
  else return none

/-- An export declaration, at the word `export`. -/
def exportDeclaration (self : Rules) (ctx : Context) : Parser StatementBody := do
  expectWord ctx.operand "export"
  if ← acceptWord ctx.operand "default" then defaultExport self ctx
  else if ← sees "\x7b" then exportList self ctx
  else if ← sees "*" then exportEverything self ctx
  else match ← variableKind? with
    | some kind =>
      advance ctx
      return .exportDeclaration (← variableDeclaration self ctx kind)
    | none => return .exportDeclaration (← require? (← declaration? self ctx))

/-! ### Modules -/

/-- A statement of a module; `import` in front of a parenthesis or a point begins an expression. -/
def moduleItem (self : Rules) (ctx : Context) : Parser StatementBody := do
  if ← seesWord "import" then
    let next ← require? ((← get).cursor.next? ctx)
    if next.token.isOneOf ["(", "."] then self.statement ctx false
    else importDeclaration self ctx
  else if ← seesWord "export" then exportDeclaration self ctx
  else self.statement ctx false

/-- Statements at their places up to the end. -/
def statements (self : Rules) (item : Parser StatementBody) : Parser (List Statement) :=
  iterate (fun (taken : List Statement) => do
    match ← peek with
    | .finish => return .done taken.reverse
    | _ =>
      let start ← place
      let body ← item
      return .again (⟨← spanFrom start, body⟩ :: taken)) self.budget []

end JsonCompanion.Script
