import ScenarioRunner.Text.Blank
import ScenarioRunner.Text.Digit
import ScenarioRunner.Text.Lead
import ScenarioRunner.Text.Lines
import ScenarioRunner.Text.Utf8
import ScenarioRunner.Text.TerminalCodes
import ScenarioRunner.Text.Quoted
import ScenarioRunner.Text.Word
import ScenarioRunner.Decimal.Shortest
import ScenarioRunner.Transcript.Summary
import ScenarioRunner.Feature.Draft
import ScenarioRunner.Feature.Builder
import ScenarioRunner.Settings.Layer
import ScenarioRunner.Settings.VariableFile
import ScenarioRunner.Settings.Yaml.Document
import ScenarioRunner.Feature.Store
import ScenarioRunner.Settings.Runner
import ScenarioRunner.Run.Selection
import ScenarioRunner.Run.Session
import ScenarioRunner.Console.Logger
import ScenarioRunner.CommandLine.Program
import ScenarioRunner.Main
import ScenarioRunner.Proofs.Feature.History
import ScenarioRunner.Proofs.Transcript.SummaryBlock
import ScenarioRunner.Proofs.Text.Lines
import ScenarioRunner.Proofs.Transcript.Decoration
import ScenarioRunner.Proofs.LineEnds
import ScenarioRunner.Proofs.Feature.Identity
import ScenarioRunner.Proofs.Transcript.OneLine
import ScenarioRunner.Proofs.Transcript.Readable
import ScenarioRunner.Proofs.Run.Session
import ScenarioRunner.Proofs.Run.Supervision
import ScenarioRunner.Proofs.Run.FailedLaunch
import ScenarioRunner.Proofs.Transcript.Modes
import ScenarioRunner.Proofs.Transcript.Consistency
import ScenarioRunner.Proofs.Run.NamePattern
import ScenarioRunner.Proofs.Feature.Names
import ScenarioRunner.Proofs.Run.CaseSelection
import ScenarioRunner.Proofs.Run.RowCoverage
import ScenarioRunner.Proofs.Feature.Placement
import ScenarioRunner.Proofs.Run.Selection
import ScenarioRunner.Proofs.Run.AggregateQueue
import ScenarioRunner.Proofs.Files.Uri
import ScenarioRunner.Proofs.Files.Found
import ScenarioRunner.Proofs.Feature.Reading
import ScenarioRunner.Proofs.Run.Freshness
import ScenarioRunner.Proofs.Settings.Precedence
import ScenarioRunner.Proofs.Settings.Rejection
import ScenarioRunner.Proofs.Settings.DeepMerge
import ScenarioRunner.Proofs.Settings.Variables
import ScenarioRunner.Proofs.Text.JoinedLines
import ScenarioRunner.Proofs.Transcript.FailureMessage
import ScenarioRunner.Proofs.Transcript.MessageLines
import ScenarioRunner.Proofs.Files.Written
import ScenarioRunner.Proofs.CommandLine.ExitStatus
import ScenarioRunner.Proofs.Feature.LineGrammar
import ScenarioRunner.Proofs.Feature.Placeholders
import ScenarioRunner.Proofs.Feature.Substitution
import ScenarioRunner.Proofs.Feature.Growth
import ScenarioRunner.Proofs.Feature.SourcePositions
import ScenarioRunner.Proofs.Feature.Rebuilding
import ScenarioRunner.Proofs.Text.Stripping
import ScenarioRunner.Proofs.Console.LoggerLevels
import ScenarioRunner.Proofs.Settings.WorkingDirectory
import ScenarioRunner.Proofs.Feature.Listing
import ScenarioRunner.Proofs.Settings.DottedLookup
