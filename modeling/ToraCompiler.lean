import ToraCompiler.Binary64.Basic
import ToraCompiler.Binary64.Decimal
import ToraCompiler.Binary64.Shortest
import ToraCompiler.Catalog
import ToraCompiler.CommandLine.Build
import ToraCompiler.CommandLine.Invocation
import ToraCompiler.CommandLine.Report
import ToraCompiler.CommandLine.Run
import ToraCompiler.CommandLine.Source
import ToraCompiler.Compilation
import ToraCompiler.Diagnostic
import ToraCompiler.Files.Entries
import ToraCompiler.Files.Path
import ToraCompiler.Files.Tree
import ToraCompiler.Host.Literal
import ToraCompiler.Host.Prologue
import ToraCompiler.Host.Server
import ToraCompiler.Host.Writer
import ToraCompiler.Interpreter.Frame
import ToraCompiler.Interpreter.Link
import ToraCompiler.Interpreter.Process
import ToraCompiler.Main
import ToraCompiler.Number
import ToraCompiler.Proofs.Binary64.Overflow
import ToraCompiler.Proofs.CommandLine.Build
import ToraCompiler.Proofs.Compilation.Batch
import ToraCompiler.Proofs.Compilation.Fragments
import ToraCompiler.Proofs.Compilation.Layout
import ToraCompiler.Proofs.Compilation.Lockstep
import ToraCompiler.Proofs.Compilation.Relocation
import ToraCompiler.Proofs.Files.Effects
import ToraCompiler.Proofs.Files.Paths
import ToraCompiler.Proofs.Files.Walk
import ToraCompiler.Proofs.Host.Concatenation
import ToraCompiler.Proofs.Host.Denotation
import ToraCompiler.Proofs.Host.Drafts
import ToraCompiler.Proofs.Host.Hygiene
import ToraCompiler.Proofs.Host.Integers
import ToraCompiler.Proofs.Host.Lines
import ToraCompiler.Proofs.Host.NumberLiterals
import ToraCompiler.Proofs.Host.NumberText
import ToraCompiler.Proofs.Host.OneLine
import ToraCompiler.Proofs.Host.Outline
import ToraCompiler.Proofs.Host.Pen
import ToraCompiler.Proofs.Host.ReadBack
import ToraCompiler.Proofs.Interpreter.Conversation
import ToraCompiler.Proofs.Interpreter.Replies
import ToraCompiler.Proofs.Interpreter.Transparency
import ToraCompiler.Proofs.Scope.Effect
import ToraCompiler.Proofs.Scope.Events
import ToraCompiler.Proofs.Scope.InPlace
import ToraCompiler.Proofs.Scope.Stack
import ToraCompiler.Proofs.Scope.Violations
import ToraCompiler.Proofs.Shell.Exceptions
import ToraCompiler.Proofs.Shell.Groups
import ToraCompiler.Proofs.Shell.HeldBack
import ToraCompiler.Proofs.Shell.InStep
import ToraCompiler.Proofs.Text.Numeral
import ToraCompiler.Proofs.Text.Utf8
import ToraCompiler.Proofs.Token.Bookkeeping
import ToraCompiler.Proofs.Token.Escapes
import ToraCompiler.Proofs.Token.Layout
import ToraCompiler.Proofs.Token.Lexemes
import ToraCompiler.Proofs.Token.Lines
import ToraCompiler.Proofs.Token.Lossless
import ToraCompiler.Proofs.Token.Pieces
import ToraCompiler.Proofs.Token.Places
import ToraCompiler.Proofs.Token.Spelling
import ToraCompiler.Proofs.Tree.Acceptance
import ToraCompiler.Proofs.Tree.Brackets
import ToraCompiler.Proofs.Tree.Completeness
import ToraCompiler.Proofs.Tree.Confinement
import ToraCompiler.Proofs.Tree.Derivation
import ToraCompiler.Proofs.Tree.FirstOffence
import ToraCompiler.Proofs.Tree.FoldedMinus
import ToraCompiler.Proofs.Tree.Introduced
import ToraCompiler.Proofs.Tree.Literals
import ToraCompiler.Proofs.Tree.Lookahead
import ToraCompiler.Proofs.Tree.LoopCondition
import ToraCompiler.Proofs.Tree.Numbers
import ToraCompiler.Proofs.Tree.Phrase
import ToraCompiler.Proofs.Tree.Reading
import ToraCompiler.Proofs.Tree.Relocation
import ToraCompiler.Proofs.Tree.Resumption
import ToraCompiler.Proofs.Tree.Soundness
import ToraCompiler.Proofs.Tree.Tracking
import ToraCompiler.Proofs.Tree.Unfolding
import ToraCompiler.Proofs.Tree.Viability
import ToraCompiler.Proofs.Tree.Vocabulary
import ToraCompiler.Proofs.Tree.Walking
import ToraCompiler.Scope.Analyzer
import ToraCompiler.Scope.Basic
import ToraCompiler.Scope.Check
import ToraCompiler.Shell.Entry
import ToraCompiler.Shell.Loop
import ToraCompiler.SystemFault
import ToraCompiler.Text.Alphabetic
import ToraCompiler.Text.Blank
import ToraCompiler.Text.CodePoints
import ToraCompiler.Text.Join
import ToraCompiler.Text.Numeral
import ToraCompiler.Text.Printable
import ToraCompiler.Text.Quoted
import ToraCompiler.Text.Slice
import ToraCompiler.Text.Utf8
import ToraCompiler.Token.Basic
import ToraCompiler.Token.Lexer
import ToraCompiler.Token.Literal
import ToraCompiler.Token.Scan
import ToraCompiler.Tree.Basic
import ToraCompiler.Tree.Grammar
import ToraCompiler.Tree.Reader
import ToraCompiler.Tree.Walk
