import JsonCompanion.Script.Token

/-!
# Syntax trees

The part of the syntax of a module that the library looks at.  Parentheses leave no trace.

* `Expr` keeps the parts of data: literals, names, signs, templates, arrays and objects, together
  with the member accesses, calls and assignments that declare things, and with what code between
  parentheses consists of: constructions, operators, conditions and arrow functions.  Any other
  expression is known by its kind only.
* `Pattern` is the left side of a declaration; `Expr.pattern` reads an expression as one, and
  `Pattern.boundNames` lists the names it binds.
* `ClassBody` and `Statement` say what a class and a module declare, and where.
-/

namespace JsonCompanion.Script

/-- A part of the source, from one offset up to another. -/
structure Span where
  start : Nat
  stop : Nat
  deriving DecidableEq, Inhabited

/-- The prefix operators that yield a value without changing anything. -/
inductive UnaryOp
  | minus
  | plus
  | void
  | other
  deriving DecidableEq

/-- Expressions whose value is known only when they run; a template is one when an escape in it is
not valid. -/
inductive RuntimeKind
  | await
  | chain
  | classExpression
  | functionExpression
  | importCall
  | logical
  | metaProperty
  | sequence
  | taggedTemplate
  | template
  | update
  | yield
  deriving DecidableEq

mutual

/-- An expression; an arrow function has no body if that is a block of statements. -/
inductive Expr
  | name (name : Text)
  | string (value : Text)
  | number (value : Number)
  | bigint (value : Int)
  | bool (value : Bool)
  | null
  | regex (literal : RegexLiteral)
  | template (chunks : List Text) (parts : List Expr)
  | unary (op : UnaryOp) (operand : Expr)
  | array (elements : List Element)
  | object (properties : List Property)
  | this
  | superObject
  | member (object : Expr) (key : Key)
  | call (callee : Expr) (arguments : List Element)
  | assign (plain : Bool) (target value : Expr)
  | privateName (name : Text)
  | construction (callee : Expr) (arguments : List Element)
  | binary (operator : Text) (left right : Expr)
  | conditional (condition value other : Expr)
  | arrow (parameters : List Element) (body : Option Expr)
  | runtime (kind : RuntimeKind)

/-- An element of an array, or an argument of a call. -/
inductive Element
  | hole
  | spread (value : Expr)
  | item (value : Expr)

/-- A part of an object. -/
inductive Property
  | spread (value : Expr)
  | entry (key : Key) (value : Expr)
  | shorthandDefault (name : Text) (value : Expr)
  | method (key : Key)

/-- What names a member: an identifier, a literal, an expression in brackets, or a private name; the
key of a field may be missing. -/
inductive Key
  | label (name : Text)
  | literal (value : Expr)
  | computed (value : Expr)
  | privateName (name : Text)
  | missing

end

instance : Inhabited Expr := ⟨.null⟩

/-- The left side of a declaration or a parameter; another expression in its place binds nothing,
and the parameter of a method may be missing in front of a default. -/
inductive Pattern
  | name (name : Text)
  | object (parts : List Pattern)
  | array (parts : List Pattern)
  | withDefault (pattern : Pattern)
  | rest (pattern : Pattern)
  | missing
  | other

instance : Inhabited Pattern := ⟨.name []⟩

mutual

/-- The names that a pattern binds, from left to right. -/
def Pattern.boundNames : Pattern → List Text
  | .name bound => [bound]
  | .object parts => Pattern.boundNamesOfAll parts
  | .array parts => Pattern.boundNamesOfAll parts
  | .withDefault pattern => pattern.boundNames
  | .rest pattern => pattern.boundNames
  | .missing | .other => []

/-- The names that patterns bind one after another. -/
def Pattern.boundNamesOfAll : List Pattern → List Text
  | [] => []
  | pattern :: patterns => pattern.boundNames ++ Pattern.boundNamesOfAll patterns

end

mutual

/-- The pattern that an expression is read as. -/
def Expr.pattern : Expr → Pattern
  | .name bound => .name bound
  | .array elements => .array (Element.patterns elements)
  | .object properties => .object (Property.patterns properties)
  | .assign _ target _ => .withDefault target.pattern
  | _ => .other

/-- The patterns of the elements of an array. -/
def Element.patterns : List Element → List Pattern
  | [] => []
  | .hole :: elements => Element.patterns elements
  | .spread value :: elements => .rest value.pattern :: Element.patterns elements
  | .item value :: elements => value.pattern :: Element.patterns elements

/-- The patterns of the properties of an object. -/
def Property.patterns : List Property → List Pattern
  | [] => []
  | .spread value :: properties => .rest value.pattern :: Property.patterns properties
  | .entry _ value :: properties => value.pattern :: Property.patterns properties
  | .shorthandDefault name _ :: properties =>
    .withDefault (.name name) :: Property.patterns properties
  | .method _ :: properties => .other :: Property.patterns properties

end

mutual

/-- Every assignment in the place of a part is a plain one, as in a pattern. -/
def Expr.assignsPlainly : Expr → Bool
  | .array elements => Element.assignPlainly elements
  | .object properties => Property.assignPlainly properties
  | .assign plain target _ => plain && target.assignsPlainly
  | _ => true

/-- Every assignment among the elements of an array is a plain one. -/
def Element.assignPlainly : List Element → Bool
  | [] => true
  | .hole :: elements => Element.assignPlainly elements
  | .spread value :: elements | .item value :: elements =>
    value.assignsPlainly && Element.assignPlainly elements

/-- Every assignment among the properties of an object is a plain one. -/
def Property.assignPlainly : List Property → Bool
  | [] => true
  | .spread value :: properties | .entry _ value :: properties =>
    value.assignsPlainly && Property.assignPlainly properties
  | .shorthandDefault .. :: properties | .method _ :: properties =>
    Property.assignPlainly properties

end

/-- An expression that stands as a statement, with its place. -/
structure Effect where
  start : Nat
  expr : Expr

/-- What a member of a class is. -/
inductive MemberRole
  | constructor (parameters : List Pattern) (effects : List Effect)
  | getter
  | setter
  | method
  | field (value : Option Expr)

/-- A member of a class; its place is that of its first word. -/
structure Member where
  start : Nat
  isStatic : Bool
  key : Key
  role : MemberRole

/-- A superclass with its place in the source. -/
structure Superclass where
  expr : Expr
  span : Span

/-- A class: its name, superclass, members other than static blocks, and the part of the source from
the opening to behind the closing brace. -/
structure ClassBody where
  name : Option Text
  superclass : Option Superclass
  members : List Member
  body : Span

/-- The name under which a module exports or imports, and whether it is written as a string. -/
structure ModuleName where
  name : Text
  isString : Bool

/-- A binding that an import declaration creates. -/
inductive ImportSpecifier
  | byDefault (bound : Text)
  | namespace (bound : Text)
  | named (imported : ModuleName) (bound : Text)

/-- The name that an import specifier binds. -/
def ImportSpecifier.bound : ImportSpecifier → Text
  | .byDefault bound => bound
  | .namespace bound => bound
  | .named _ bound => bound

/-- A name in an export list. -/
structure ExportSpecifier where
  inner : ModuleName
  exported : ModuleName

/-- A variable with its initial value. -/
structure Declarator where
  pattern : Pattern
  value : Option Expr

/-- What a declaration introduces. -/
inductive Declaration
  | class (body : ClassBody)
  | function (name : Option Text)
  | declarators (declarators : List Declarator)

/-- What a module exports by default. -/
inductive DefaultExport
  | class (body : ClassBody)
  | function (name : Option Text)
  | expression (value : Expr)

/-- A statement, as far as the library looks at it. -/
inductive StatementBody
  | declaration (declaration : Declaration)
  | importNames (specifiers : List ImportSpecifier) (source : Text)
  | exportDeclaration (declaration : Declaration)
  | exportNames (specifiers : List ExportSpecifier) (source : Option Text)
  | exportDefault (value : DefaultExport)
  | exportAll
  | expression (value : Expr)
  | other

/-- A statement at its place. -/
structure Statement where
  span : Span
  body : StatementBody

/-- A module: its statements and comments in source order. -/
structure Module where
  statements : List Statement
  comments : List Comment

/-- The names of the kinds of expressions, as messages give them. -/
def RuntimeKind.name : RuntimeKind → Text
  | .await => "AwaitExpression"
  | .chain => "ChainExpression"
  | .classExpression => "ClassExpression"
  | .functionExpression => "FunctionExpression"
  | .importCall => "ImportExpression"
  | .logical => "LogicalExpression"
  | .metaProperty => "MetaProperty"
  | .sequence => "SequenceExpression"
  | .taggedTemplate => "TaggedTemplateExpression"
  | .template => "TemplateLiteral"
  | .update => "UpdateExpression"
  | .yield => "YieldExpression"

/-- The name of the kind of an expression. -/
def Expr.kindName : Expr → Text
  | .name _ => "Identifier"
  | .string _ | .number _ | .bigint _ | .bool _ | .null | .regex .. => "Literal"
  | .template .. => "TemplateLiteral"
  | .unary .. => "UnaryExpression"
  | .array _ => "ArrayExpression"
  | .object _ => "ObjectExpression"
  | .this => "ThisExpression"
  | .superObject => "Super"
  | .member .. => "MemberExpression"
  | .call .. => "CallExpression"
  | .assign .. => "AssignmentExpression"
  | .privateName _ => "PrivateIdentifier"
  | .construction .. => "NewExpression"
  | .binary .. => "BinaryExpression"
  | .conditional .. => "ConditionalExpression"
  | .arrow .. => "ArrowFunctionExpression"
  | .runtime kind => kind.name

end JsonCompanion.Script
