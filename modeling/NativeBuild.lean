import NativeBuild.Ordered.Set
import NativeBuild.Ordered.Map
import NativeBuild.Ordered.Group
import NativeBuild.Path.Basic
import NativeBuild.Policy
import NativeBuild.Command
import NativeBuild.Link.Synthesis
import NativeBuild.Exports
import NativeBuild.Diagnostic.Line
import NativeBuild.FrontEnd
import NativeBuild.Codegen.Request
import NativeBuild.Source.EntryPoint
import NativeBuild.Program.Document
import NativeBuild.Program.Import
import NativeBuild.Program.Load
import NativeBuild.Files.Tree
import NativeBuild.Files.Glob
import NativeBuild.Patch
import NativeBuild.Files.Changes
import NativeBuild.Discovery
import NativeBuild.Build.Run
import NativeBuild.Build.Rehearsal
import NativeBuild.Console.Basic
import NativeBuild.Console.Duration
import NativeBuild.Build.Preparation
import NativeBuild.Toml.Reader
import NativeBuild.Settings.Read
import NativeBuild.CommandLine.Options
import NativeBuild.Script.Syntax
import NativeBuild.Script.Token
import NativeBuild.Script.Reader
import NativeBuild.Script.Utility
import NativeBuild.Script.Start
import NativeBuild.Build.Toolchain
import NativeBuild.CommandLine.Perform
import NativeBuild.Main
import NativeBuild.Proofs.Program.Closure
import NativeBuild.Proofs.Program.Record
import NativeBuild.Proofs.Program.Scan
import NativeBuild.Proofs.Program.Facts
import NativeBuild.Proofs.Program.Walk
import NativeBuild.Proofs.Program.Execution
import NativeBuild.Proofs.Program.Refinement
import NativeBuild.Proofs.Text.ByteOrder
import NativeBuild.Proofs.Program.Failures
import NativeBuild.Proofs.Program.Schedule
import NativeBuild.Proofs.Build.ToolCommands
import NativeBuild.Proofs.Files.Effects
import NativeBuild.Proofs.Files.Alike
import NativeBuild.Proofs.Files.Patching
import NativeBuild.Proofs.Files.Repatching
import NativeBuild.Proofs.Build.Passage
import NativeBuild.Proofs.Build.PatchedInputs
import NativeBuild.Proofs.Files.Outside
import NativeBuild.Proofs.Build.Intermediates
import NativeBuild.Proofs.Build.Separation
import NativeBuild.Proofs.Files.Room
import NativeBuild.Proofs.Files.Renewal
import NativeBuild.Proofs.Build.Routine
import NativeBuild.Proofs.Build.Rebuild
import NativeBuild.Proofs.Files.Straight
import NativeBuild.Proofs.Program.Devirtualization
import NativeBuild.Proofs.Link.Tokens
import NativeBuild.Proofs.Link.ExportsOption
import NativeBuild.Proofs.Build.Frame
import NativeBuild.Proofs.Program.Tables
import NativeBuild.Proofs.Program.Waves
import NativeBuild.Proofs.Program.BreadthFirst
import NativeBuild.Proofs.Build.HandOffs
import NativeBuild.Proofs.Link.Parts
import NativeBuild.Proofs.Link.UserTokens
import NativeBuild.Proofs.Link.Linkage
import NativeBuild.Proofs.Link.RuntimeObjects
import NativeBuild.Proofs.Link.WrapBlock
import NativeBuild.Proofs.Text.Runs
import NativeBuild.Proofs.Diagnostic.Marks
import NativeBuild.Proofs.Diagnostic.Headings
import NativeBuild.Proofs.Diagnostic.Legible
import NativeBuild.Proofs.Diagnostic.Output
import NativeBuild.Proofs.Source.EntryPoint
import NativeBuild.Proofs.Build.FrontEndOutput
import NativeBuild.Proofs.Target.Canonical
import NativeBuild.Proofs.Layout.DerivedPaths
import NativeBuild.Proofs.Build.SameProgram
import NativeBuild.Proofs.Discovery.References
import NativeBuild.Proofs.Discovery.RuntimeReferences
import NativeBuild.Proofs.Discovery.Sources
import NativeBuild.Proofs.Policy.Globalization
import NativeBuild.Proofs.Program.Documents
import NativeBuild.Proofs.Settings.Documents
import NativeBuild.Proofs.Settings.ToolLocations
import NativeBuild.Proofs.Exports.SymbolLines
