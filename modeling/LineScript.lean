import LineScript.Text.Letter
import LineScript.Text.CodeRange
import LineScript.Text.Lowercase
import LineScript.Text.Line
import LineScript.Text.Quoted
import LineScript.Number.Rounding
import LineScript.Number.Shortest
import LineScript.Number.Literal
import LineScript.CompileError
import LineScript.Lexeme
import LineScript.Token.Reading
import LineScript.Token.Extent
import LineScript.Statement.Reading
import LineScript.Value.Collection
import LineScript.Disk
import LineScript.Files
import LineScript.World
import LineScript.Memory.Evaluation
import LineScript.Run
import LineScript.Session
import LineScript.Main
import LineScript.Proofs.Outcome
import LineScript.Proofs.Lexeme.Boundary
import LineScript.Proofs.Token.ListLiteral
import LineScript.Proofs.Statement.Form
import LineScript.Proofs.Statement.Productions
import LineScript.Proofs.Statement.Acceptance
import LineScript.Proofs.Memory.Lookup
import LineScript.Proofs.Machine.Operational
import LineScript.Proofs.Machine.Deed
import LineScript.Proofs.Machine.Operands
import LineScript.Proofs.Machine.Effect
import LineScript.Proofs.Program.Drive
import LineScript.Proofs.Program.ScopeReturn
import LineScript.Proofs.Program.MemoryInvariant
import LineScript.Proofs.Machine.Frame
import LineScript.Proofs.Program.ScopeIsolation
import LineScript.Proofs.Machine.Failure
import LineScript.Proofs.Machine.Unbound
import LineScript.Proofs.Lexeme.Case
import LineScript.Proofs.Token.Case
import LineScript.Proofs.Statement.Case
import LineScript.Proofs.Machine.Case
import LineScript.Proofs.Program.Case
import LineScript.Proofs.Program.Compilation
import LineScript.Proofs.Machine.ControlFlow
import LineScript.Proofs.Program.ControlFlow
import LineScript.Proofs.Program.FailureLine
import LineScript.Proofs.Text.Lowercase
import LineScript.Proofs.Statement.Jump
import LineScript.Proofs.Program.Labels
import LineScript.Proofs.Disk.Append
import LineScript.Proofs.Files.Handover
import LineScript.Proofs.Files.Buffering
import LineScript.Proofs.Files.Sweep
import LineScript.Proofs.Memory.Sweep
import LineScript.Proofs.Machine.Lending
import LineScript.Proofs.Machine.FileActions
import LineScript.Proofs.Machine.Holding
import LineScript.Proofs.Program.Steps
import LineScript.Proofs.Program.BufferedWriting
import LineScript.Proofs.Program.Crash
import LineScript.Proofs.Program.NullVariable
import LineScript.Proofs.Program.ClosedFile
import LineScript.Proofs.Machine.Console
import LineScript.Proofs.Program.FailingConsole
import LineScript.Proofs.Disk.Find
import LineScript.Proofs.Text.LineBytes
import LineScript.Proofs.Value.Line
import LineScript.Proofs.Files.Gathering
import LineScript.Proofs.Machine.FileCourse
import LineScript.Proofs.Program.FileRoundTrip
import LineScript.Proofs.Memory.Lens
import LineScript.Proofs.Memory.Agreement
import LineScript.Proofs.Program.Unchanged
import LineScript.Proofs.Lexeme.Continuation
import LineScript.Proofs.Token.Continuation
import LineScript.Proofs.Statement.Continuation
import LineScript.Proofs.Lexeme.StringLiteral
import LineScript.Proofs.Token.StringLiteral
import LineScript.Proofs.Text.Nesting
import LineScript.Proofs.Lexeme.Nesting
import LineScript.Proofs.Token.Spelling
import LineScript.Proofs.Token.Slices
import LineScript.Proofs.Token.Printing
import LineScript.Proofs.Token.Elements
import LineScript.Proofs.Text.Quoted
import LineScript.Proofs.Token.Surroundings
import LineScript.Proofs.Token.Quotation
import LineScript.Proofs.Number.Literal
import LineScript.Proofs.Token.NumberLiteral
import LineScript.Proofs.Token.Displayed
import LineScript.Proofs.Machine.Reply
import LineScript.Proofs.Machine.NumberReply
import LineScript.Proofs.Machine.DisplayedReply
import LineScript.Proofs.Statement.Following
import LineScript.Proofs.Statement.Diagnosis
import LineScript.Proofs.Value.Arithmetic
import LineScript.Proofs.Number.Place
import LineScript.Proofs.Number.Promotion
import LineScript.Proofs.Value.Equality
import LineScript.Proofs.Value.Order
import LineScript.Proofs.Memory.Recursion
import LineScript.Proofs.Memory.Variable
