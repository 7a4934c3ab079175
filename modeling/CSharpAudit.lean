import CSharpAudit.Text.Utf8
import CSharpAudit.Text.Blank
import CSharpAudit.Text.Case
import CSharpAudit.Text.NameChar
import CSharpAudit.Text.Printable
import CSharpAudit.Text.Quoted
import CSharpAudit.Source.Span
import CSharpAudit.Source.LineTable
import CSharpAudit.Branching
import CSharpAudit.Concrete.Node
import CSharpAudit.Concrete.Damage
import CSharpAudit.Tree.Node
import CSharpAudit.Tree.Basic
import CSharpAudit.Tree.Numbering
import CSharpAudit.Tree.InferredType
import CSharpAudit.Tree.OfConcrete
import CSharpAudit.Tree.Parse
import CSharpAudit.CSharp.Token
import CSharpAudit.CSharp.Lexeme
import CSharpAudit.CSharp.Directive
import CSharpAudit.CSharp.Lexer
import CSharpAudit.CSharp.Pattern
import CSharpAudit.CSharp.Rule
import CSharpAudit.CSharp.Types
import CSharpAudit.CSharp.Expressions
import CSharpAudit.CSharp.Statements
import CSharpAudit.CSharp.Declarations
import CSharpAudit.CSharp.Production
import CSharpAudit.CSharp
import CSharpAudit.Log
import CSharpAudit.Finding
import CSharpAudit.Finding.Validation
import CSharpAudit.Rule.Basic
import CSharpAudit.Rule.Builtin
import CSharpAudit.Config
import CSharpAudit.Engine
import CSharpAudit.Report
import CSharpAudit.Storage.Path
import CSharpAudit.Storage.Files
import CSharpAudit.Document
import CSharpAudit.CommandLine.Arguments
import CSharpAudit.CommandLine.Run
import CSharpAudit.Main
import CSharpAudit.Proofs.Text.Utf8
import CSharpAudit.Proofs.Text.Distinct
import CSharpAudit.Proofs.Source.Layout
import CSharpAudit.Proofs.Source.LineTable
import CSharpAudit.Proofs.Source.Position
import CSharpAudit.Proofs.Text.Lines
import CSharpAudit.Proofs.Tree.Preorder
import CSharpAudit.Proofs.Tree.Parts
import CSharpAudit.Proofs.Concrete.Visits
import CSharpAudit.Proofs.Tree.InferredType
import CSharpAudit.Proofs.Concrete.Damage
import CSharpAudit.Proofs.Tree.Spans
import CSharpAudit.Proofs.Engine.Analysis
import CSharpAudit.Proofs.Engine.Order
import CSharpAudit.Proofs.Engine.Snippets
import CSharpAudit.Proofs.Tree.Comments
import CSharpAudit.Proofs.Source.Prefix
import CSharpAudit.Proofs.Tree.Shift
import CSharpAudit.Proofs.Engine.Outcome
import CSharpAudit.Proofs.Engine.Prepend
import CSharpAudit.Proofs.Tree.Origins
import CSharpAudit.Proofs.Tree.Conservation
import CSharpAudit.Proofs.Tree.Built
import CSharpAudit.Proofs.Tree.Shape
import CSharpAudit.Proofs.Tree.Kinds
import CSharpAudit.Proofs.Concrete.DeclaredType
import CSharpAudit.Proofs.Rule.InferredPrimitive
import CSharpAudit.Proofs.Text.WellFormed
import CSharpAudit.Proofs.Document.Acquisition
import CSharpAudit.Proofs.Storage.Path
import CSharpAudit.Proofs.CommandLine.Outcomes
import CSharpAudit.Proofs.Engine.Blocks
import CSharpAudit.Proofs.Engine.Registry
import CSharpAudit.Proofs.Engine.Configuration
import CSharpAudit.Proofs.Text.Terminators
import CSharpAudit.Proofs.Concrete.Point
import CSharpAudit.Proofs.Source.PositionOrder
import CSharpAudit.Proofs.Tree.Roles
import CSharpAudit.Proofs.Tree.Conversions
import CSharpAudit.Proofs.Rule.PublicField
import CSharpAudit.Proofs.Rule.CollapsibleIf
import CSharpAudit.Proofs.Rule.LongParameterList
import CSharpAudit.Proofs.Text.Scan
import CSharpAudit.Proofs.Source.LineBreaks
import CSharpAudit.Proofs.Tree.Numbering
import CSharpAudit.Proofs.Tree.Ancestry
import CSharpAudit.Proofs.Report.Printing
import CSharpAudit.Proofs.Report.Rendering
import CSharpAudit.Proofs.Concrete.Excerpt
import CSharpAudit.Proofs.Concrete.FirstFault
import CSharpAudit.Proofs.Source.Slices
import CSharpAudit.Proofs.Text.Case
import CSharpAudit.Proofs.CSharp.Numbers
import CSharpAudit.Proofs.CSharp.NumberTokens
import CSharpAudit.Proofs.Tree.LiteralTypes
