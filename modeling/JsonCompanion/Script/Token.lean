import JsonCompanion.Number.Decimal
import JsonCompanion.Script.RegularExpression.Literal
import JsonCompanion.Text.Letter

/-!
# Tokens and comments of a script

* `Vocabulary` sorts words by what they may be used for, and `Vocabulary.ofWord` looks a word up.
* `Token` is a lexical unit of JavaScript; punctuation is a token named by its own text.
* `marks` lists the punctuation, longer ones before their beginnings.
-/

namespace JsonCompanion.Script

/-! ### Words -/

/-- What a word may be used for.

* `plain` is a mere name, `restricted` one that strict code never assigns.
* `async`, `await`, `yield` and `let` are names that are more in some places.
* `contextual` words are names before anything else, a `particle` is one only where nothing else
  fits.
* `future` words are names outside strict code only, and `reserved` ones never.
* A special word written with escapes is `disguised`, `disguisedFuture` where strict code reserves
  it, or a `futureName` where other code takes it as a name. -/
inductive Vocabulary
  | plain
  | restricted
  | async
  | await
  | yield
  | let
  | contextual
  | particle
  | future
  | reserved
  | disguised
  | disguisedFuture
  | futureName
  deriving DecidableEq

/-- Words that are never identifiers. -/
def reservedWords : List Text :=
  (["break", "case", "catch", "class", "const", "continue", "debugger", "default", "delete", "do",
   "else", "enum", "export", "extends", "false", "finally", "for", "function", "if", "import",
   "in", "instanceof", "new", "null", "return", "super", "switch", "this", "throw", "true", "try",
   "typeof", "var", "void", "while", "with"] : List String).map Text.ofString

/-- Words that are no identifiers in strict code, besides `let` and `yield`. -/
def futureWords : List Text :=
  (["implements", "interface", "package", "private", "protected", "public", "static"] :
    List String).map Text.ofString

/-- Words that are special in some places only. -/
def contextualWords : List Text :=
  (["accessor", "from", "get", "meta", "of", "set", "target"] : List String).map Text.ofString

/-- Looks a word up. -/
def Vocabulary.ofWord (word : Text) : Vocabulary :=
  if reservedWords.contains word then .reserved
  else if futureWords.contains word then .future
  else if contextualWords.contains word then .contextual
  else if word == ("as" : Text) || word == ("constructor" : Text) then .particle
  else if word == ("let" : Text) then .let
  else if word == ("yield" : Text) then .yield
  else if word == ("await" : Text) then .await
  else if word == ("async" : Text) then .async
  else if word == ("eval" : Text) || word == ("arguments" : Text) then .restricted
  else .plain

namespace Vocabulary

/-- The word is no identifier in strict code. -/
def isFuture : Vocabulary → Bool
  | .future | .futureName | .let | .yield => true
  | _ => false

/-- The word is written as itself. -/
def isOpen : Vocabulary → Bool
  | .disguised | .disguisedFuture => false
  | _ => true

/-- The word is a name before anything else. -/
def isName : Vocabulary → Bool
  | .plain | .restricted | .async | .await | .yield | .let | .contextual | .futureName => true
  | _ => false

/-- The word is refused as a name by strict code. -/
def isRestricted (word : Vocabulary) : Bool := word = .restricted || word.isFuture

end Vocabulary

/-- A word: its name, whether an escape occurs in it, and what it may be used for. -/
structure Word where
  name : Text
  escaped : Bool
  vocabulary : Vocabulary

/-! ### Tokens -/

/-- A lexical unit.  A numeral is a number whose value is a text.  A part of a template reaches up
to a substitution or to the end; it has no value if an escape in it is not valid. -/
inductive Token
  | finish
  | word (word : Word)
  | mark (text : Text)
  | number (value : Number) (legacy : Bool)
  | numeral (value : Text)
  | bigint (value : Int)
  | string (value : Text) (legacy : Bool)
  | template (value : Option Text) (last : Bool)
  | regex (literal : RegexLiteral)

/-- The punctuation, each text before all its beginnings. -/
def marks : List Text :=
  ([">>>=", "...", "===", "!==", "**=", "<<=", ">>=", ">>>", "&&=", "||=", "??=",
   "=>", "==", "!=", "<=", ">=", "&&", "||", "??", "?.", "++", "--", "+=", "-=", "*=", "/=", "%=",
   "&=", "|=", "^=", "<<", ">>", "**",
   "\x7b", "\x7d", "(", ")", "[", "]", ";", ",", "<", ">", "+", "-", "*", "/", "%", "&", "|", "^",
   "!", "~", "?", ":", "=", ".", "#", "@"] : List String).map Text.ofString

namespace Token

/-- The token is a string with an octal escape, or a number with a superfluous zero in front of a
digit that is not octal. -/
def isLegacy : Token → Bool
  | .string _ legacy | .number _ legacy => legacy
  | _ => false

/-- The token is the given punctuation. -/
def isMark (token : Token) (text : Text) : Bool :=
  match token with
  | .mark m => m == text
  | _ => false

/-- The token is one of the given punctuation. -/
def isOneOf (token : Token) (texts : List Text) : Bool :=
  match token with
  | .mark m => texts.contains m
  | _ => false

/-- The token is the given word, written without escapes. -/
def isWord (token : Token) (name : Text) : Bool :=
  match token with
  | .word w => !w.escaped && w.name == name
  | _ => false

/-- The token is a word that stands between operands, perhaps with escapes where those are free. -/
def isOperatorWord (token : Token) : Bool :=
  match token with
  | .word w =>
    w.vocabulary = .reserved && (w.name == ("in" : Text) || w.name == ("instanceof" : Text))
  | _ => false

/-- The text of punctuation or of a word. -/
def spelling : Token → Text
  | .mark text => text
  | .word w => w.name
  | _ => []

/-- The token is a part of a template. -/
def isTemplate : Token → Bool
  | .template .. => true
  | _ => false

/-- A semicolon may be missing before the token. -/
def endsStatement : Token → Bool
  | .finish => true
  | token => token.isOneOf [";", "\x7d"]

/-- The token may follow the name of a field of a class. -/
def endsField (token : Token) : Bool := token.isOneOf ["=", ";", "\x7d"]

/-- The token begins a list or an object. -/
def opensPattern (token : Token) : Bool := token.isOneOf ["[", "\x7b"]

/-- The token begins a class: the word `class`, or a mark that is read in its place. -/
def opensClass (token : Token) : Bool := token.isWord "class" || token.isMark "@"

/-- The operators that assign to a single place. -/
def assigns (token : Token) : Bool :=
  token.isOneOf ["=", "+=", "-=", "*=", "/=", "%=", "**=", "<<=", ">>=", ">>>=", "&=", "|=", "^=",
    "&&=", "||=", "??="]

/-- The token is an increment or a decrement. -/
def updates (token : Token) : Bool := token.isOneOf ["++", "--"]

/-- The reserved words that begin an operand. -/
def operandWords : List Text :=
  (["this", "function", "class", "new", "super", "import", "typeof", "void", "delete", "null",
    "true", "false"] : List String).map Text.ofString

/-- The token begins an operand. -/
def beginsOperand (token : Token) : Bool :=
  match token with
  | .finish => false
  | .word w =>
    match w.vocabulary with
    | .reserved => operandWords.contains w.name
    | .particle => w.name != ("constructor" : Text)
    | .future | .disguised | .disguisedFuture => false
    | _ => true
  | .mark _ => token.isOneOf ["(", "[", "\x7b", "+", "-", "!", "~", "++", "--", "<", "@"]
  | _ => true

end Token

/-! ### Comments -/

/-- The two kinds of comments. -/
inductive CommentKind
  | block
  | line
  deriving DecidableEq

/-- A comment: its text without the delimiters, and where it stands. -/
structure Comment where
  kind : CommentKind
  value : Text
  start : Nat
  stop : Nat

end JsonCompanion.Script
