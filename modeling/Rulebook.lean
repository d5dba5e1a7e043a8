import Rulebook.Artifact
import Rulebook.Attribute
import Rulebook.Binary64
import Rulebook.Binary64.Layout
import Rulebook.Binary64.Reading
import Rulebook.Binary64.Shortest
import Rulebook.CommandLine
import Rulebook.CommandLine.Answer
import Rulebook.CommandLine.Arguments
import Rulebook.CommandLine.Configure
import Rulebook.CommandLine.Parser
import Rulebook.Compilation
import Rulebook.Compilation.Job
import Rulebook.Config
import Rulebook.Consistency
import Rulebook.Entries
import Rulebook.Failure
import Rulebook.FileSystem
import Rulebook.FileSystem.Tree
import Rulebook.Fragment
import Rulebook.Fragment.Reading
import Rulebook.Fragment.Search
import Rulebook.Gate
import Rulebook.Glob
import Rulebook.Glob.Expression
import Rulebook.Glob.Parser
import Rulebook.Json
import Rulebook.Language
import Rulebook.Localization
import Rulebook.Localization.Reading
import Rulebook.Main
import Rulebook.Number
import Rulebook.Overlay
import Rulebook.Overlay.Error
import Rulebook.Path
import Rulebook.Power
import Rulebook.Program
import Rulebook.Proofs.Artifact
import Rulebook.Proofs.Artifact.Missing
import Rulebook.Proofs.Attribute.InPlace
import Rulebook.Proofs.Attribute.Keys
import Rulebook.Proofs.CommandLine.Layers
import Rulebook.Proofs.CommandLine.OutputDirectory
import Rulebook.Proofs.Compilation.Isolation
import Rulebook.Proofs.Compilation.Keeping
import Rulebook.Proofs.Compilation.Listing
import Rulebook.Proofs.Compilation.Localizations
import Rulebook.Proofs.Compilation.Shipping
import Rulebook.Proofs.Compilation.Stages
import Rulebook.Proofs.Consistency
import Rulebook.Proofs.Consistency.Faults
import Rulebook.Proofs.Entries
import Rulebook.Proofs.Fields
import Rulebook.Proofs.Fields.Order
import Rulebook.Proofs.FileSystem.Below
import Rulebook.Proofs.FileSystem.Directories
import Rulebook.Proofs.FileSystem.Growth
import Rulebook.Proofs.FileSystem.Listing
import Rulebook.Proofs.FileSystem.Outside
import Rulebook.Proofs.FileSystem.Places
import Rulebook.Proofs.FileSystem.Writing
import Rulebook.Proofs.Fragment.Merge
import Rulebook.Proofs.Fragment.Outside
import Rulebook.Proofs.Fragment.Search
import Rulebook.Proofs.Fragment.Trail
import Rulebook.Proofs.Fragment.Walk
import Rulebook.Proofs.Gate
import Rulebook.Proofs.Glob.Matching
import Rulebook.Proofs.Glob.Reading
import Rulebook.Proofs.Json.Pretty
import Rulebook.Proofs.Members
import Rulebook.Proofs.NormalForm
import Rulebook.Proofs.NormalKeys
import Rulebook.Proofs.Offer
import Rulebook.Proofs.Outcome
import Rulebook.Proofs.Overlay.Accounting
import Rulebook.Proofs.Overlay.Chain
import Rulebook.Proofs.Overlay.Counting
import Rulebook.Proofs.Overlay.Echo
import Rulebook.Proofs.Overlay.Fitting
import Rulebook.Proofs.Overlay.Idempotence
import Rulebook.Proofs.Overlay.Leniency
import Rulebook.Proofs.Overlay.Meaning
import Rulebook.Proofs.Overlay.Members
import Rulebook.Proofs.Overlay.Projection
import Rulebook.Proofs.Overlay.Pruning
import Rulebook.Proofs.Overlay.References
import Rulebook.Proofs.Overlay.Reordering
import Rulebook.Proofs.Overlay.Steps
import Rulebook.Proofs.Overlay.Touching
import Rulebook.Proofs.Path.Components
import Rulebook.Proofs.Report.Encoding
import Rulebook.Proofs.Report.Escaping
import Rulebook.Proofs.Report.Markdown
import Rulebook.Proofs.RuleSet
import Rulebook.Proofs.RuleSet.Loading
import Rulebook.Proofs.RuleSet.Storage
import Rulebook.Proofs.Scope
import Rulebook.Proofs.Settings.Search
import Rulebook.Proofs.Template
import Rulebook.Proofs.Text.Lines
import Rulebook.Proofs.Yaml.Document
import Rulebook.Report
import Rulebook.Report.Render
import Rulebook.RuleSet
import Rulebook.Scope
import Rulebook.Settings
import Rulebook.Settings.Reading
import Rulebook.Settings.Search
import Rulebook.Shell.Arithmetic
import Rulebook.Shell.Builtin
import Rulebook.Shell.Builtin.Condition
import Rulebook.Shell.Builtin.Directory
import Rulebook.Shell.Builtin.Lookup
import Rulebook.Shell.Builtin.Process
import Rulebook.Shell.Builtin.Reading
import Rulebook.Shell.Builtin.Variables
import Rulebook.Shell.Builtin.Writing
import Rulebook.Shell.Call
import Rulebook.Shell.Command
import Rulebook.Shell.Expansion
import Rulebook.Shell.Field
import Rulebook.Shell.Format
import Rulebook.Shell.LinePattern
import Rulebook.Shell.Parser
import Rulebook.Shell.Pattern
import Rulebook.Shell.Program
import Rulebook.Shell.Quoting
import Rulebook.Shell.Run
import Rulebook.Shell.Runner
import Rulebook.Shell.Search
import Rulebook.Shell.Source
import Rulebook.Shell.State
import Rulebook.Shell.Step
import Rulebook.Shell.Stream
import Rulebook.Shell.Utility
import Rulebook.Shell.Utility.Copying
import Rulebook.Shell.Utility.Counting
import Rulebook.Shell.Utility.Cutting
import Rulebook.Shell.Utility.Exchanging
import Rulebook.Shell.Utility.Filing
import Rulebook.Shell.Utility.Frame
import Rulebook.Shell.Utility.Ordering
import Rulebook.Shell.Utility.Searching
import Rulebook.Shell.Utility.Telling
import Rulebook.Signal
import Rulebook.Template
import Rulebook.Text.Blank
import Rulebook.Text.Hidden
import Rulebook.Text.Lines
import Rulebook.Text.Marks
import Rulebook.Text.Octets
import Rulebook.Text.Utf8
import Rulebook.Value
import Rulebook.Value.Outline
import Rulebook.Yaml.Block
import Rulebook.Yaml.Cursor
import Rulebook.Yaml.Document
import Rulebook.Yaml.Gap
import Rulebook.Yaml.Lexer
import Rulebook.Yaml.Node
import Rulebook.Yaml.Plain
import Rulebook.Yaml.Quoted
import Rulebook.Yaml.Resolution
import Rulebook.Yaml.Tag
import Rulebook.Yaml.Token
