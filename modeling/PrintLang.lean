import PrintLang.Build
import PrintLang.Bytes
import PrintLang.Bytes.Base64
import PrintLang.Bytes.Blank
import PrintLang.Bytes.Category
import PrintLang.Bytes.Double
import PrintLang.Bytes.Integer
import PrintLang.Bytes.Lower
import PrintLang.Bytes.Printable
import PrintLang.Bytes.Quoted
import PrintLang.Bytes.Runs
import PrintLang.Bytes.Script
import PrintLang.Bytes.Utf8
import PrintLang.CommandLine
import PrintLang.CommandLine.Flag
import PrintLang.Compile
import PrintLang.Diagnostic
import PrintLang.Diagnostic.Context
import PrintLang.Dump
import PrintLang.Failure
import PrintLang.FileTree
import PrintLang.Ignore
import PrintLang.Ignore.CodeSet
import PrintLang.Ignore.Regex
import PrintLang.Ignore.Regex.Reader
import PrintLang.Index
import PrintLang.Listing
import PrintLang.Listing.Assembler
import PrintLang.Listing.Instr
import PrintLang.Listing.Reader
import PrintLang.Listing.Register
import PrintLang.Lowering
import PrintLang.Lowering.Expr
import PrintLang.Machine
import PrintLang.Machine.Alu
import PrintLang.Machine.Memory
import PrintLang.Machine.Run
import PrintLang.Machine.Step
import PrintLang.Main
import PrintLang.Path
import PrintLang.Program
import PrintLang.Program.Parser
import PrintLang.Proofs.Build.Interleaving
import PrintLang.Proofs.Build.Steps
import PrintLang.Proofs.Bytes.Ascii
import PrintLang.Proofs.Bytes.Decimal
import PrintLang.Proofs.Bytes.Integer
import PrintLang.Proofs.Compile.Entry
import PrintLang.Proofs.Compile.FileName
import PrintLang.Proofs.Compile.Run
import PrintLang.Proofs.FileTree.Change
import PrintLang.Proofs.FileTree.Walk
import PrintLang.Proofs.Listing.Assembler
import PrintLang.Proofs.Listing.Operand
import PrintLang.Proofs.Listing.Passes
import PrintLang.Proofs.Listing.Reader
import PrintLang.Proofs.Lowering.Code
import PrintLang.Proofs.Lowering.Correct
import PrintLang.Proofs.Lowering.Generate
import PrintLang.Proofs.Lowering.Image
import PrintLang.Proofs.Lowering.Listing
import PrintLang.Proofs.Lowering.Run
import PrintLang.Proofs.Lowering.Value
import PrintLang.Proofs.Machine.Bounded
import PrintLang.Proofs.Machine.Exec
import PrintLang.Proofs.Machine.Invariant
import PrintLang.Proofs.Machine.Limit
import PrintLang.Proofs.Machine.Memory
import PrintLang.Proofs.Machine.PrintInt
import PrintLang.Proofs.Machine.Runs
import PrintLang.Proofs.Machine.Word
import PrintLang.Proofs.Outcome
import PrintLang.Proofs.Program.Grammar
import PrintLang.Proofs.Program.Literal
import PrintLang.Proofs.Program.Records
import PrintLang.Proofs.Token.Kinds
import PrintLang.Proofs.Token.Munch
import PrintLang.Proofs.Token.Partition
import PrintLang.Proofs.Token.Scan
import PrintLang.Session
import PrintLang.Settings
import PrintLang.Shell
import PrintLang.Shell.Builtin
import PrintLang.Shell.Expand
import PrintLang.Shell.Files
import PrintLang.Shell.Format
import PrintLang.Shell.Pattern
import PrintLang.Shell.Reader
import PrintLang.Shell.Redirect
import PrintLang.Shell.Run
import PrintLang.Shell.State
import PrintLang.Shell.Sum
import PrintLang.Shell.Test
import PrintLang.Shell.Token
import PrintLang.Signal
import PrintLang.Sources
import PrintLang.Store
import PrintLang.Store.Node
import PrintLang.Store.Ty
import PrintLang.Target
import PrintLang.Token
import PrintLang.Token.Lexer
import PrintLang.Tool
import PrintLang.Yaml
import PrintLang.Yaml.Cursor
import PrintLang.Yaml.Decode
import PrintLang.Yaml.Reader
import PrintLang.Yaml.Text
import PrintLang.Yaml.Timestamp
import PrintLang.Yaml.Token
import PrintLang.Yaml.Token.Property
import PrintLang.Yaml.Token.Scalar
import PrintLang.Yaml.Token.Stream
import PrintLang.Yaml.Value
import PrintLang.Proofs.Listing.Excerpt
import PrintLang.Proofs.Lowering.Routine
import PrintLang.Proofs.Build.Outputs
import PrintLang.Proofs.Build.Inputs
import PrintLang.Proofs.Build.Announced
import PrintLang.Proofs.Token.Lines
import PrintLang.Proofs.Lowering.Expression
import PrintLang.Proofs.Lowering.Emitter
import PrintLang.Proofs.Lowering.Obstacle
import PrintLang.Proofs.Machine.Width
import PrintLang.Proofs.Machine.Arithmetic
import PrintLang.Proofs.Program.RoundTrip
import PrintLang.Proofs.Program.Viable
import PrintLang.Proofs.Bytes.Line
import PrintLang.Proofs.Diagnostic.Context
import PrintLang.Proofs.Diagnostic.Caret
import PrintLang.Proofs.Machine.Precise
import PrintLang.Proofs.Listing.Rendering
import PrintLang.Proofs.Listing.Reuse
import PrintLang.Proofs.Store.History
import PrintLang.Proofs.Failure.Severity
import PrintLang.Proofs.Bytes.Quoted
import PrintLang.Proofs.Diagnostic.Invalid
import PrintLang.Proofs.Build.InTurn
import PrintLang.Proofs.Build.Fatal
import PrintLang.Proofs.FileTree.Clean
import PrintLang.Proofs.FileTree.Genuine
import PrintLang.Proofs.FileTree.Sources
import PrintLang.Proofs.Machine.Division
import PrintLang.Proofs.Machine.Access
