import LiveC.Arguments
import LiveC.Attempt
import LiveC.Bridge.Basic
import LiveC.Bridge.Convention
import LiveC.Bridge.Machine
import LiveC.Bridge.Trampoline
import LiveC.Command.Line
import LiveC.Command.Program
import LiveC.Command.Route
import LiveC.Command.Shell
import LiveC.Compiler.Binding
import LiveC.Compiler.History
import LiveC.Compiler.Request
import LiveC.Compiler.Scripted
import LiveC.Complaint
import LiveC.Config
import LiveC.Contract
import LiveC.Diagnostic.Basic
import LiveC.Diagnostic.LineMap
import LiveC.Diagnostic.Message
import LiveC.Diagnostic.Report
import LiveC.Diagnostic.Similar
import LiveC.Diagnostic.Snippet
import LiveC.Execution
import LiveC.Failure
import LiveC.Files.Path
import LiveC.Files.Tree
import LiveC.Files.Usual
import LiveC.Flags.Basic
import LiveC.Flags.Run
import LiveC.Guard.Basic
import LiveC.Guard.Nesting
import LiveC.Guard.Signal
import LiveC.Inline
import LiveC.Library.Candidates
import LiveC.Library.HostImage
import LiveC.Library.Image
import LiveC.Library.Loader
import LiveC.Library.Registry
import LiveC.Log
import LiveC.Main
import LiveC.Module.Cache
import LiveC.Module.Import
import LiveC.Module.Run
import LiveC.Platform
import LiveC.Proofs.Bridge.Cache
import LiveC.Proofs.Bridge.Calling
import LiveC.Proofs.Command.Entry
import LiveC.Proofs.Command.Feeding
import LiveC.Proofs.Command.Reading
import LiveC.Proofs.Command.Routing
import LiveC.Proofs.Command.Separator
import LiveC.Proofs.Compiler.Places
import LiveC.Proofs.Compiler.Scripted
import LiveC.Proofs.Compiler.Sources
import LiveC.Proofs.Compiler.Texts
import LiveC.Proofs.Diagnostic.Advice
import LiveC.Proofs.Diagnostic.Announcement
import LiveC.Proofs.Diagnostic.Colors
import LiveC.Proofs.Diagnostic.Display
import LiveC.Proofs.Diagnostic.Editing
import LiveC.Proofs.Diagnostic.Message
import LiveC.Proofs.Diagnostic.Output
import LiveC.Proofs.Diagnostic.Ranking
import LiveC.Proofs.Diagnostic.Snippet
import LiveC.Proofs.Execution.Abreast
import LiveC.Proofs.Execution.Custody
import LiveC.Proofs.Execution.Ending
import LiveC.Proofs.Execution.Growth
import LiveC.Proofs.Execution.Laws
import LiveC.Proofs.Execution.Operations
import LiveC.Proofs.Execution.Order
import LiveC.Proofs.Execution.Quiet
import LiveC.Proofs.Execution.Runs
import LiveC.Proofs.Execution.Twins
import LiveC.Proofs.Files.Beside
import LiveC.Proofs.Files.Path
import LiveC.Proofs.Files.Tree
import LiveC.Proofs.Flags.Inputs
import LiveC.Proofs.Flags.Objects
import LiveC.Proofs.Flags.Parts
import LiveC.Proofs.Flags.Settings
import LiveC.Proofs.Guard.Recovery
import LiveC.Proofs.Library.Closing
import LiveC.Proofs.Library.Errors
import LiveC.Proofs.Library.Probing
import LiveC.Proofs.Library.Registry
import LiveC.Proofs.Library.Search
import LiveC.Proofs.Lists
import LiveC.Proofs.Module.Deciding
import LiveC.Proofs.Module.Importing
import LiveC.Proofs.Module.Transparency
import LiveC.Proofs.Module.Unshared
import LiveC.Proofs.Module.Visits
import LiveC.Proofs.Repl.History
import LiveC.Proofs.Repl.Input
import LiveC.Proofs.Repl.Layout
import LiveC.Proofs.Repl.LineMap
import LiveC.Proofs.Repl.Replacement
import LiveC.Proofs.Repl.Size
import LiveC.Proofs.Session.Abreast
import LiveC.Proofs.Session.Building
import LiveC.Proofs.Session.Course
import LiveC.Proofs.Session.Custody
import LiveC.Proofs.Session.Denial
import LiveC.Proofs.Session.Failing
import LiveC.Proofs.Session.LateBinding
import LiveC.Proofs.Session.Laws
import LiveC.Proofs.Session.Linker
import LiveC.Proofs.Session.Linking
import LiveC.Proofs.Session.Messages
import LiveC.Proofs.Session.Missing
import LiveC.Proofs.Session.Order
import LiveC.Proofs.Session.Registration
import LiveC.Proofs.Session.Requests
import LiveC.Proofs.Session.Script
import LiveC.Proofs.Session.Sources
import LiveC.Proofs.Session.Translator
import LiveC.Proofs.Session.Visits
import LiveC.Proofs.Session.Warnings
import LiveC.Proofs.Symbol.Attribution
import LiveC.Proofs.Symbol.Builtins
import LiveC.Proofs.Symbol.Lasting
import LiveC.Proofs.Symbol.Resolving
import LiveC.Proofs.Symbol.Trampolines
import LiveC.Proofs.Text.Bytes
import LiveC.Proofs.Text.DigitWriter
import LiveC.Proofs.Text.Lines
import LiveC.Proofs.Text.Numeral
import LiveC.Proofs.Text.Quoted
import LiveC.Proofs.Text.Search
import LiveC.Proofs.Text.Trim
import LiveC.Proofs.Text.Utf8
import LiveC.Repl.Command
import LiveC.Repl.Fragment
import LiveC.Repl.Session
import LiveC.Session.Basic
import LiveC.Session.Build
import LiveC.Session.Setup
import LiveC.Settings
import LiveC.Style
import LiveC.Symbol.Builtin
import LiveC.Symbol.Linkage
import LiveC.Symbol.Place
import LiveC.Terminal
import LiveC.Text.Blank
import LiveC.Text.DigitWriter
import LiveC.Text.Escaped
import LiveC.Text.Numeral
import LiveC.Text.Printable
import LiveC.Text.Quoted
import LiveC.Text.Split
import LiveC.Text.Utf8
import LiveC.World
