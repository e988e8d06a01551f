import PartProgram.Command.Arguments
import PartProgram.Command.Failure
import PartProgram.Command.Run
import PartProgram.Command.Switch
import PartProgram.Command.Usage
import PartProgram.Config.Basic
import PartProgram.Config.File
import PartProgram.Config.Override
import PartProgram.Config.Section
import PartProgram.Config.Setting
import PartProgram.Decimal.Binary
import PartProgram.Decimal.Digits
import PartProgram.Decimal.Layout
import PartProgram.Decimal.Numeral
import PartProgram.Decimal.Rounded
import PartProgram.Decimal.Shortest
import PartProgram.Files.AtomicWrite
import PartProgram.Files.Disk
import PartProgram.Files.Path
import PartProgram.Files.Tree
import PartProgram.Job.Basic
import PartProgram.Job.Checked
import PartProgram.Job.Directive
import PartProgram.Job.File
import PartProgram.Job.Issue
import PartProgram.Job.Reading
import PartProgram.Journal.Basic
import PartProgram.Journal.Context
import PartProgram.Journal.Instant
import PartProgram.Journal.Json
import PartProgram.Journal.Note
import PartProgram.Journal.Record
import PartProgram.Journal.Session
import PartProgram.Journal.Template
import PartProgram.Naming.NameSource
import PartProgram.Naming.Twister
import PartProgram.Operation.Basic
import PartProgram.Operation.Generator
import PartProgram.Operation.Kind
import PartProgram.Program.Basic
import PartProgram.Program.Call
import PartProgram.Program.CallKind
import PartProgram.Program.Directive
import PartProgram.Program.Opening
import PartProgram.Proofs.Answer
import PartProgram.Proofs.Binary64
import PartProgram.Proofs.DecimalText
import PartProgram.Proofs.Directive
import PartProgram.Proofs.History
import PartProgram.Proofs.JobCalls
import PartProgram.Proofs.JobSettings
import PartProgram.Proofs.Places
import PartProgram.Proofs.Lifecycle
import PartProgram.Proofs.Listing
import PartProgram.Proofs.Motion
import PartProgram.Proofs.MotionWords
import PartProgram.Proofs.Numbering
import PartProgram.Proofs.Opening
import PartProgram.Proofs.Operations
import PartProgram.Proofs.Policy
import PartProgram.Proofs.Rounding
import PartProgram.Proofs.StrictNumbers
import PartProgram.Text.Blank
import PartProgram.Text.Case
import PartProgram.Text.CaseTable
import PartProgram.Text.DecimalDigit
import PartProgram.Text.Printable
import PartProgram.Text.Quoted
import PartProgram.Text.Ranges
import PartProgram.Value.Basic
import PartProgram.Value.Entries
import PartProgram.Value.Equality
import PartProgram.Value.Fields
import PartProgram.Value.Finite
import PartProgram.Value.Key
import PartProgram.Value.Order
import PartProgram.Value.Printer
import PartProgram.Word.Code
import PartProgram.Word.DistanceMode
import PartProgram.Word.LengthUnit
import PartProgram.Word.LineNumber
import PartProgram.Word.Motion
import PartProgram.Word.Position
import PartProgram.Yaml.Block
import PartProgram.Yaml.Cursor
import PartProgram.Yaml.Document
import PartProgram.Yaml.File
import PartProgram.Yaml.Flow
import PartProgram.Yaml.Meaning
import PartProgram.Yaml.Node
import PartProgram.Yaml.Reader
import PartProgram.Yaml.Scalar
import PartProgram.Yaml.Text
import PartProgram.Main
import PartProgram.Proofs.Written
import PartProgram.Proofs.Unnumbered
import PartProgram.Proofs.Splitting
import PartProgram.Proofs.Shape
import PartProgram.Proofs.Outcomes
import PartProgram.Proofs.Finality
import PartProgram.Proofs.Ending
import PartProgram.Proofs.Transparency
import PartProgram.Proofs.FileWork
import PartProgram.Proofs.Sessions
import PartProgram.Proofs.Effects
import PartProgram.Proofs.Refusals
import PartProgram.Proofs.Inputs
import PartProgram.Proofs.Exits
import PartProgram.Proofs.Overrides
import PartProgram.Proofs.Casing
import PartProgram.Proofs.Findings
import PartProgram.Proofs.Interchange
import PartProgram.Proofs.Restating
import PartProgram.Proofs.StrictErrors
import PartProgram.Proofs.DecimalValue
import PartProgram.Proofs.ShortestDecimal
import PartProgram.Proofs.NumberText
import PartProgram.Proofs.WholeMoves
import PartProgram.Proofs.Permissive
import PartProgram.Proofs.SingleCalls
import PartProgram.Proofs.Abreast
import PartProgram.Proofs.Conversion
import PartProgram.Proofs.PassedOver
import PartProgram.Proofs.Independence
import PartProgram.Proofs.Naming
import PartProgram.Proofs.Nearest
import PartProgram.Proofs.ReadingBack
import PartProgram.Proofs.LooseNumeral
import PartProgram.Proofs.NumericModes
import PartProgram.Proofs.ModeWays
import PartProgram.Proofs.Coordinates
import PartProgram.Proofs.JobMoves
import PartProgram.Proofs.Atomicity
import PartProgram.Proofs.Deliveries
import PartProgram.Proofs.Outlets
import PartProgram.Proofs.RunContext
import PartProgram.Proofs.ContextCalls
import PartProgram.Proofs.JsonReading
import PartProgram.Proofs.JsonValues
import PartProgram.Proofs.JsonLines
import PartProgram.Proofs.ContextHistory
import PartProgram.Proofs.TwisterWords
import PartProgram.Proofs.PassedWords
import PartProgram.Proofs.SourceNames
