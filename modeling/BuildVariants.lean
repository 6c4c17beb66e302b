import BuildVariants.ArgumentText
import BuildVariants.Command
import BuildVariants.CommandLine.Completions
import BuildVariants.CommandLine.Execute
import BuildVariants.CommandLine.Grammar
import BuildVariants.CommandLine.Help
import BuildVariants.CommandLine.Mistake
import BuildVariants.CommandLine.Order
import BuildVariants.CommandLine.Parameter
import BuildVariants.CommandLine.Reading
import BuildVariants.Diagnostic
import BuildVariants.Environment
import BuildVariants.FileTree
import BuildVariants.Host
import BuildVariants.Invocation
import BuildVariants.Json
import BuildVariants.Json.Reader
import BuildVariants.Keyed
import BuildVariants.Launch
import BuildVariants.Log
import BuildVariants.Operation.Build
import BuildVariants.Operation.Clean
import BuildVariants.Operation.Run
import BuildVariants.Operation.Step
import BuildVariants.OsError
import BuildVariants.Path
import BuildVariants.Plan
import BuildVariants.Plan.Decode
import BuildVariants.Plan.Render
import BuildVariants.Project
import BuildVariants.Proofs.Text.Hexadecimal
import BuildVariants.Proofs.Json.Grammar
import BuildVariants.Proofs.Toml.WrittenString
import BuildVariants.Registry
import BuildVariants.Search
import BuildVariants.Status
import BuildVariants.TaskConfig
import BuildVariants.Text.Spacing
import BuildVariants.Text.Scan
import BuildVariants.Text.Styled
import BuildVariants.Text.Terminal
import BuildVariants.Toml.Document
import BuildVariants.Toml.Form
import BuildVariants.Toml.Lexeme
import BuildVariants.Toml.Number
import BuildVariants.Toml.Reader
import BuildVariants.Toml.Tree
import BuildVariants.Toml.Value
import BuildVariants.Variables
import BuildVariants.Variant
import BuildVariants.Words
import BuildVariants.World
import BuildVariants.Main
import BuildVariants.Proofs.Toml.WrittenDocument
import BuildVariants.Proofs.Toml.WrittenForms
import BuildVariants.Proofs.Toml.Growth
import BuildVariants.Proofs.Plan.Decoding
import BuildVariants.Proofs.Plan.RoundTrip
import BuildVariants.Proofs.Operation.Call
import BuildVariants.Proofs.Operation.Outline
import BuildVariants.Proofs.Operation.Rehearsal
import BuildVariants.Proofs.Operation.DryRun
import BuildVariants.Proofs.Simulation.Correspondence
import BuildVariants.Proofs.Simulation.Watching
import BuildVariants.Proofs.Operation.Removal
import BuildVariants.Proofs.FileTree.Following
import BuildVariants.Proofs.FileTree.Files
import BuildVariants.Proofs.Simulation.Triple
import BuildVariants.Proofs.Operation.History
import BuildVariants.Proofs.Operation.Configuration
import BuildVariants.Proofs.Operation.CleanedPlaces
import BuildVariants.Proofs.Plan.Registration
import BuildVariants.Proofs.Plan.Declaring
import BuildVariants.Proofs.Plan.Validation
import BuildVariants.Proofs.Plan.RunTargets
import BuildVariants.Proofs.Toml.Likeness
import BuildVariants.Proofs.Plan.Schema
import BuildVariants.Proofs.Plan.Exactness
import BuildVariants.Proofs.Simulation.Trials
import BuildVariants.Proofs.Operation.StepOrder
import BuildVariants.Proofs.FileTree.Pruning
import BuildVariants.Proofs.FileTree.Removing
import BuildVariants.Proofs.FileTree.Making
import BuildVariants.Proofs.Operation.Cleaning
import BuildVariants.Proofs.Simulation.Lockstep
import BuildVariants.Proofs.Operation.Verbosity
import BuildVariants.Proofs.Operation.Anchoring
import BuildVariants.Proofs.Words.PlainWords
import BuildVariants.Proofs.Words.ArgumentForms
import BuildVariants.Proofs.Words.Grammar
import BuildVariants.Proofs.Words.Derivation
import BuildVariants.Proofs.Words.WordLists
import BuildVariants.Proofs.Words.Emptiness
import BuildVariants.Proofs.Words.Concatenation
import BuildVariants.Proofs.Words.DisplayedCommands
import BuildVariants.Proofs.Path.Parents
import BuildVariants.Proofs.Project.Discovery
import BuildVariants.Proofs.Operation.Diagnosing
import BuildVariants.Proofs.Operation.Preparing
import BuildVariants.Proofs.Simulation.Observing
import BuildVariants.Proofs.Json.Scalars
import BuildVariants.Proofs.Json.Printing
import BuildVariants.Proofs.Json.Reading
import BuildVariants.Proofs.Plan.TaskText
