import BookCompiler.Text.Blank
import BookCompiler.Text.Accent
import BookCompiler.Text.Case
import BookCompiler.Text.Alphabetic
import BookCompiler.Text.Quoted
import BookCompiler.Name.Words
import BookCompiler.Name.Reference
import BookCompiler.Decimal.Reader
import BookCompiler.Decimal.Format
import BookCompiler.Digest
import BookCompiler.Json.Codec
import BookCompiler.Pipeline.Formfactor
import BookCompiler.Draft.Pipeline
import BookCompiler.Draft.Task
import BookCompiler.Command.Registry
import BookCompiler.Wire.Draft
import BookCompiler.Wire.Command
import BookCompiler.Compile.Dependencies
import BookCompiler.Book
import BookCompiler.Command.Apply
import BookCompiler.Command.Take
import BookCompiler.Compile.Basic
import BookCompiler.Compile.Write
import BookCompiler.Catalog.Loading
import BookCompiler.Catalog.Build
import BookCompiler.Proofs.Name.Order
import BookCompiler.Proofs.Draft.Parameters
import BookCompiler.Proofs.Draft.Slots
import BookCompiler.Proofs.Draft.Declarations
import BookCompiler.Proofs.Compile.Run
import BookCompiler.Proofs.Command.Effect
import BookCompiler.Proofs.Compile.Closure
import BookCompiler.Proofs.Compile.Roles
import BookCompiler.Proofs.Compile.Rounds
import BookCompiler.Proofs.Compile.Validity
import BookCompiler.Proofs.Compile.ImplicitRoles
import BookCompiler.Proofs.Markdown.Piece
import BookCompiler.Proofs.Markdown.Page
import BookCompiler.Proofs.Markdown.Manuscript
import BookCompiler.Proofs.Text.Words
import BookCompiler.Proofs.Command.Resolve
import BookCompiler.Proofs.Command.Sound
import BookCompiler.Proofs.Decimal.Rounding
import BookCompiler.Proofs.Decimal.Shortest
import BookCompiler.Proofs.Decimal.ReadBack
import BookCompiler.Proofs.Command.ReadBack
import BookCompiler.Proofs.Command.RoundTrip
import BookCompiler.Proofs.Markdown.Block
import BookCompiler.Proofs.Markdown.Sheet
import BookCompiler.Proofs.Markdown.Volume
import BookCompiler.Proofs.Command.Reapply
import BookCompiler.Proofs.Compile.Made
import BookCompiler.Proofs.Compile.Redeclared
import BookCompiler.Proofs.Compile.Rebuild
import BookCompiler.Proofs.Compile.Restore
import BookCompiler.Proofs.Compile.Legible
import BookCompiler.Proofs.Compile.Abstraction
import BookCompiler.Proofs.Compile.RoundTrip
import BookCompiler.Proofs.Compile.Making
import BookCompiler.Proofs.Compile.Finish
import BookCompiler.Proofs.Compile.WellFormed
import BookCompiler.Proofs.Compile.Parts
import BookCompiler.Proofs.Compile.SectionOrder
import BookCompiler.Proofs.Command.Growth
import BookCompiler.Proofs.Draft.Growth
import BookCompiler.Proofs.Command.Refusal
import BookCompiler.Proofs.Command.Amounts
import BookCompiler.Proofs.Compile.Retake
import BookCompiler.Proofs.Compile.Sections
import BookCompiler.Proofs.Json.Members
import BookCompiler.Proofs.Wire.ReadBack
import BookCompiler.Proofs.Compile.Limits
import BookCompiler.Proofs.Script.Reaches
import BookCompiler.Proofs.Script.Words
import BookCompiler.Proofs.Compile.ParameterNames
import BookCompiler.Proofs.Compile.Headings
import BookCompiler.Proofs.Script.Faults
import BookCompiler.Proofs.Script.Braces
import BookCompiler.Proofs.Script.Overclosed
import BookCompiler.Proofs.Script.Lexemes
import BookCompiler.Proofs.Script.Literals
import BookCompiler.Proofs.Script.Balanced
import BookCompiler.Proofs.Script.ClearText
import BookCompiler.Proofs.Script.Templates
import BookCompiler.Proofs.Command.Faults
import BookCompiler.Proofs.Compile.Consistency
import BookCompiler.Proofs.Compile.LineEnds
import BookCompiler.Proofs.Catalog.History
import BookCompiler.Proofs.Catalog.Library
import BookCompiler.Proofs.Compile.Placeholders
import BookCompiler.Proofs.Markdown.Division
import BookCompiler.Proofs.Markdown.Opening
import BookCompiler.Proofs.Markdown.Flattened
import BookCompiler.Proofs.Markdown.Enclosed
import BookCompiler.Proofs.Markdown.Commented
import BookCompiler.Proofs.Markdown.Unwrapped
import BookCompiler.Proofs.Text.Returns
import BookCompiler.Proofs.Markdown.Prompted
import BookCompiler.Proofs.Markdown.FlatPrompt
import BookCompiler.Proofs.Markdown.Boxed
import BookCompiler.Proofs.Draft.Personas
import BookCompiler.Proofs.Name.Grammar
import BookCompiler.Proofs.Script.Brackets
import BookCompiler.Proofs.Name.Title
