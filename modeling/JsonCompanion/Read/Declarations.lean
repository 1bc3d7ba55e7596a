import JsonCompanion.Failure
import JsonCompanion.Model.Basic
import JsonCompanion.Script.Tree

/-!
# What a module declares

* `LocatedClass` is a class at the top of a module with the statement around it, and
  `Module.classes` lists them in order.
* `declaresMember` tells whether a class has a member of some name.
* `Module.exportedNames` are the names that a module exports unchanged, `Module.defaultExport?` the
  name behind its default export, and `Module.importBindings` what its imports bind.
-/

namespace JsonCompanion.Script

/-- A class at the top of a module, with the place of its statement. -/
structure LocatedClass where
  content : ClassBody
  statement : Nat

/-- The class that a statement declares, exported or not. -/
def StatementBody.class? : StatementBody → Option ClassBody
  | .declaration (.class body) => some body
  | .exportDeclaration (.class body) => some body
  | .exportDefault (.class body) => some body
  | _ => none

/-- The variables that a statement declares, exported or not. -/
def StatementBody.declarators? : StatementBody → Option (List Declarator)
  | .declaration (.declarators list) => some list
  | .exportDeclaration (.declarators list) => some list
  | _ => none

/-- The class that a statement declares, at its place. -/
def Statement.class? (statement : Statement) : Option LocatedClass :=
  statement.body.class?.map fun body => ⟨body, statement.span.start⟩

/-- The classes at the top of a module in order. -/
def Module.classes (module : Module) : List LocatedClass :=
  module.statements.filterMap Statement.class?

/-- The first class of a name. -/
def Module.findClass? (module : Module) (name : Text) : Option LocatedClass :=
  module.classes.find? fun located => located.content.name == some name

/-- The text of a key that is an identifier or a string and is written without brackets. -/
def Key.plainName? : Key → Option Text
  | .label name => some name
  | .literal (.string name) => some name
  | _ => none

/-- The failure of looking at a key or a parameter that is missing. -/
def missingPart : Failure :=
  .foreign "TypeError" "Cannot read properties of null (reading 'type')"

/-- The text of a key that is not missing. -/
def Key.knownName? : Key → Attempt (Option Text)
  | .missing => .error missingPart
  | key => .ok key.plainName?

/-- One of the members of a class has the name, static or not; a missing key in front of it is a
failure. -/
def declaresMember (name : Text) (isStatic : Bool) : List Member → Attempt Bool
  | [] => .ok false
  | member :: members =>
    if member.isStatic == isStatic then do
      if (← member.key.knownName?) == some name then return true
      else declaresMember name isStatic members
    else declaresMember name isStatic members

/-- The names that a statement exports unchanged. -/
def StatementBody.exportedNames : StatementBody → List Text
  | .exportDeclaration (.class body) => body.name.toList
  | .exportDeclaration (.function name) => name.toList
  | .exportDeclaration (.declarators list) =>
    list.filterMap fun d =>
      match d.pattern with
      | .name name => some name
      | _ => none
  | .exportNames specifiers none =>
    specifiers.filterMap fun s =>
      if s.inner.name == s.exported.name then some s.inner.name else none
  | _ => []

/-- The names that a module exports under the name they have inside. -/
def Module.exportedNames (module : Module) : List Text :=
  module.statements.flatMap fun statement => statement.body.exportedNames

/-- The name behind the default export of a statement; `some none` if it has no name. -/
def StatementBody.defaultExport? : StatementBody → Option (Option Text)
  | .exportDefault (.class body) => some body.name
  | .exportDefault (.function name) => some name
  | .exportDefault (.expression (.name name)) => some (some name)
  | .exportDefault (.expression _) => some none
  | .exportNames specifiers none =>
    (specifiers.find? fun s => s.exported.name == ("default" : Text)).map fun s => some s.inner.name
  | _ => none

/-- The name inside the module of what it exports by default. -/
def Module.defaultExport? (module : Module) : Option Text :=
  (module.statements.findSome? fun statement => statement.body.defaultExport?).join

/-- An import declaration with its place. -/
structure LocatedImport where
  specifiers : List ImportSpecifier
  source : Text
  span : Span

/-- The import declaration that a statement is. -/
def Statement.import? (statement : Statement) : Option LocatedImport :=
  match statement.body with
  | .importNames specifiers source => some ⟨specifiers, source, statement.span⟩
  | _ => none

/-- The import declarations of a module in order. -/
def Module.imports (module : Module) : List LocatedImport :=
  module.statements.filterMap Statement.import?

/-- The binding of a specifier. -/
def ImportSpecifier.binding (source : Text) : ImportSpecifier → ImportBinding
  | .byDefault bound => ⟨.byDefault, "default", bound, source⟩
  | .namespace bound => ⟨.namespace, "*", bound, source⟩
  | .named imported bound => ⟨.named, imported.name, bound, source⟩

/-- The bindings that the imports of a module create. -/
def Module.importBindings (module : Module) : List ImportBinding :=
  module.imports.flatMap fun i => i.specifiers.map (ImportSpecifier.binding i.source)

end JsonCompanion.Script
