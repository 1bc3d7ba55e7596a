import JsonCompanion.Collecting
import JsonCompanion.Companion.Imports
import JsonCompanion.Companion.Path
import JsonCompanion.Compose.ClassOutput
import JsonCompanion.Compose.Composition
import JsonCompanion.Compose.Delegation
import JsonCompanion.Config.Merge
import JsonCompanion.Config.Options
import JsonCompanion.Config.Outcome
import JsonCompanion.Config.Rename
import JsonCompanion.Config.Schema
import JsonCompanion.Data.Instant
import JsonCompanion.Data.Printed
import JsonCompanion.Data.Value
import JsonCompanion.Diagnostic
import JsonCompanion.Emit.Conversion
import JsonCompanion.Emit.Encoder
import JsonCompanion.Emit.Factory
import JsonCompanion.Emit.Fragment
import JsonCompanion.Emit.Literal
import JsonCompanion.Emit.Names
import JsonCompanion.Emit.Support
import JsonCompanion.Failure
import JsonCompanion.Files.Basic
import JsonCompanion.Files.Task
import JsonCompanion.Log
import JsonCompanion.Model.Basic
import JsonCompanion.Model.Selection
import JsonCompanion.Number.Basic
import JsonCompanion.Number.Decimal
import JsonCompanion.Patch.Basic
import JsonCompanion.Patch.Summary
import JsonCompanion.Patch.Task
import JsonCompanion.Proofs.Attempt
import JsonCompanion.Proofs.Collecting
import JsonCompanion.Proofs.Companion.Bindings
import JsonCompanion.Proofs.Companion.Classes
import JsonCompanion.Proofs.Companion.Imports
import JsonCompanion.Proofs.Companion.NamePattern
import JsonCompanion.Proofs.Companion.Path
import JsonCompanion.Proofs.Companion.Rereading
import JsonCompanion.Proofs.Compose.Agreement
import JsonCompanion.Proofs.Compose.ClassOutput
import JsonCompanion.Proofs.Compose.Defaults
import JsonCompanion.Proofs.Compose.Delegation
import JsonCompanion.Proofs.Compose.Distinct
import JsonCompanion.Proofs.Compose.Fragments
import JsonCompanion.Proofs.Compose.Names
import JsonCompanion.Proofs.Compose.Pairs
import JsonCompanion.Proofs.Compose.Placement
import JsonCompanion.Proofs.Config.Layers
import JsonCompanion.Proofs.Config.Rename
import JsonCompanion.Proofs.Config.Schema
import JsonCompanion.Proofs.Data.Record
import JsonCompanion.Proofs.Data.Static
import JsonCompanion.Proofs.Emit.Admitted
import JsonCompanion.Proofs.Emit.Change
import JsonCompanion.Proofs.Emit.Construction
import JsonCompanion.Proofs.Emit.Conversion
import JsonCompanion.Proofs.Emit.Decoding
import JsonCompanion.Proofs.Emit.Encoder
import JsonCompanion.Proofs.Emit.Factory
import JsonCompanion.Proofs.Emit.Fragment
import JsonCompanion.Proofs.Emit.Keeping
import JsonCompanion.Proofs.Emit.Literal
import JsonCompanion.Proofs.Emit.LookUps
import JsonCompanion.Proofs.Emit.Objects
import JsonCompanion.Proofs.Emit.PassThrough
import JsonCompanion.Proofs.Emit.Requests
import JsonCompanion.Proofs.Emit.Rewriting
import JsonCompanion.Proofs.Emit.Rules
import JsonCompanion.Proofs.Emit.Soundness
import JsonCompanion.Proofs.Emit.Supported
import JsonCompanion.Proofs.Files.Footprint
import JsonCompanion.Proofs.Files.Interleaving
import JsonCompanion.Proofs.Model.Keys
import JsonCompanion.Proofs.Model.Selection
import JsonCompanion.Proofs.Number.Digits
import JsonCompanion.Proofs.Number.Numeral
import JsonCompanion.Proofs.Number.ReadBack
import JsonCompanion.Proofs.Number.Rounding
import JsonCompanion.Proofs.Number.Shortest
import JsonCompanion.Proofs.Patch.Atomicity
import JsonCompanion.Proofs.Patch.Order
import JsonCompanion.Proofs.Patch.Splice
import JsonCompanion.Proofs.Patch.Task
import JsonCompanion.Proofs.Read.Accessors
import JsonCompanion.Proofs.Read.Braces
import JsonCompanion.Proofs.Read.Exports
import JsonCompanion.Proofs.Read.Fields
import JsonCompanion.Proofs.Read.Inheritance
import JsonCompanion.Proofs.Read.Recursion
import JsonCompanion.Proofs.Read.StaticValue
import JsonCompanion.Proofs.Read.Templates
import JsonCompanion.Proofs.Read.Unit
import JsonCompanion.Proofs.Run.Isolation
import JsonCompanion.Proofs.Run.Options
import JsonCompanion.Proofs.Run.Repetition
import JsonCompanion.Proofs.Run.Unit
import JsonCompanion.Proofs.Script.Blocks
import JsonCompanion.Proofs.Script.Chains
import JsonCompanion.Proofs.Script.Code
import JsonCompanion.Proofs.Script.Collections
import JsonCompanion.Proofs.Script.Data
import JsonCompanion.Proofs.Script.Elements
import JsonCompanion.Proofs.Script.Expressions
import JsonCompanion.Proofs.Script.Functions
import JsonCompanion.Proofs.Script.Imports
import JsonCompanion.Proofs.Script.Lexing
import JsonCompanion.Proofs.Script.LookUps
import JsonCompanion.Proofs.Script.Numerals
import JsonCompanion.Proofs.Script.Operands
import JsonCompanion.Proofs.Script.Parenthesized
import JsonCompanion.Proofs.Script.Paths
import JsonCompanion.Proofs.Script.Quoted
import JsonCompanion.Proofs.Script.Reading
import JsonCompanion.Proofs.Script.RegexLiteral
import JsonCompanion.Proofs.Script.Values
import JsonCompanion.Proofs.Text.Ascii
import JsonCompanion.Proofs.Text.Beginning
import JsonCompanion.Proofs.Text.Dotted
import JsonCompanion.Proofs.Text.Join
import JsonCompanion.Proofs.Text.Trim
import JsonCompanion.Proofs.Text.Words
import JsonCompanion.Proofs.Types.Grammar
import JsonCompanion.Proofs.Types.Grouping
import JsonCompanion.Proofs.Types.Names
import JsonCompanion.Proofs.Types.Parentheses
import JsonCompanion.Proofs.Types.Rereading
import JsonCompanion.Proofs.Types.Tokens
import JsonCompanion.Read.ClassModel
import JsonCompanion.Read.Declarations
import JsonCompanion.Read.DocComment
import JsonCompanion.Read.StaticValue
import JsonCompanion.Read.Unit
import JsonCompanion.Run.Basic
import JsonCompanion.Run.Unit
import JsonCompanion.Script.Class
import JsonCompanion.Script.Collection
import JsonCompanion.Script.Context
import JsonCompanion.Script.Cursor
import JsonCompanion.Script.Expression
import JsonCompanion.Script.Function
import JsonCompanion.Script.Grammar
import JsonCompanion.Script.Group
import JsonCompanion.Script.ModuleItem
import JsonCompanion.Script.Operation
import JsonCompanion.Script.Parser
import JsonCompanion.Script.Pattern
import JsonCompanion.Script.RegularExpression
import JsonCompanion.Script.RegularExpression.Basic
import JsonCompanion.Script.RegularExpression.CharacterClass
import JsonCompanion.Script.RegularExpression.GroupName
import JsonCompanion.Script.RegularExpression.Property
import JsonCompanion.Script.Scan
import JsonCompanion.Script.Statement
import JsonCompanion.Script.Token
import JsonCompanion.Script.Tree
import JsonCompanion.Text.Basic
import JsonCompanion.Text.CaseTable
import JsonCompanion.Text.IdentifierTable
import JsonCompanion.Text.Letter
import JsonCompanion.Text.Quoted
import JsonCompanion.Types.TypeRef
