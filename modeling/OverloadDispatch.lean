import OverloadDispatch.Text.Blank
import OverloadDispatch.Text.Pieces
import OverloadDispatch.Text.Identifier
import OverloadDispatch.Text.Printable
import OverloadDispatch.Text.Quoted
import OverloadDispatch.Text.Unquoted
import OverloadDispatch.Text.Position
import OverloadDispatch.Text.OneLine
import OverloadDispatch.Text.FirstWord
import OverloadDispatch.Text.Row
import OverloadDispatch.Diagnostic
import OverloadDispatch.Issue
import OverloadDispatch.Signature.Token
import OverloadDispatch.Fault
import OverloadDispatch.Word
import OverloadDispatch.QualifiedType.Basic
import OverloadDispatch.QualifiedType.Spelling
import OverloadDispatch.Substitution
import OverloadDispatch.Signature.Basic
import OverloadDispatch.Signature.Reader
import OverloadDispatch.Signature.Tree
import OverloadDispatch.Signature.Listing
import OverloadDispatch.Signature.Grammar
import OverloadDispatch.Sequence.Slice
import OverloadDispatch.Sequence.Repeats
import OverloadDispatch.Sequence.Table
import OverloadDispatch.Guard.Node
import OverloadDispatch.Guard.Build
import OverloadDispatch.Guard.Meaning
import OverloadDispatch.Host.Check
import OverloadDispatch.Host.Statement
import OverloadDispatch.Host.Line
import OverloadDispatch.Host.Dialect
import OverloadDispatch.Host.Names
import OverloadDispatch.Host.Spelling
import OverloadDispatch.Host.Renderer
import OverloadDispatch.Host.Comparison
import OverloadDispatch.Host.Options
import OverloadDispatch.OverloadSet
import OverloadDispatch.Callable
import OverloadDispatch.Workspace
import OverloadDispatch.Action
import OverloadDispatch.Request
import OverloadDispatch.Inspection
import OverloadDispatch.Proofs.Ambiguity
import OverloadDispatch.Proofs.Binding
import OverloadDispatch.Proofs.Resolution
import OverloadDispatch.Proofs.Histories
import OverloadDispatch.Proofs.Identity
import OverloadDispatch.Proofs.Lexing
import OverloadDispatch.Proofs.Reading
import OverloadDispatch.Proofs.Refusal
import OverloadDispatch.Proofs.RoundTrip
import OverloadDispatch.Proofs.Capture
import OverloadDispatch.Proofs.Assembly
import OverloadDispatch.Proofs.Dialects
import OverloadDispatch.Proofs.Indentation
import OverloadDispatch.Proofs.Validation
import OverloadDispatch.Proofs.Completion
import OverloadDispatch.Proofs.Coverage
import OverloadDispatch.Proofs.ResultProtocol
import OverloadDispatch.Guard.Retype
import OverloadDispatch.Proofs.Instantiation
import OverloadDispatch.Host.Leaf
import OverloadDispatch.Proofs.Literals
import OverloadDispatch.Proofs.ClassNames
import OverloadDispatch.Proofs.Respelling
import OverloadDispatch.Proofs.TypeReaders
import OverloadDispatch.Proofs.Conflicts
import OverloadDispatch.Proofs.Translation
import OverloadDispatch.Proofs.Layout
import OverloadDispatch.Proofs.Commas
import OverloadDispatch.Proofs.Building
import OverloadDispatch.Proofs.Stacking
import OverloadDispatch.Proofs.Collisions
import OverloadDispatch.Proofs.Slicing
