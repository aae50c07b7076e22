import PhpScaffold.Blueprint
import PhpScaffold.Calendar
import PhpScaffold.Command.Basic
import PhpScaffold.Command.Handler
import PhpScaffold.Command.Registry
import PhpScaffold.CommandLine
import PhpScaffold.CommandLine.Grammar
import PhpScaffold.CommandLine.Interface
import PhpScaffold.CommandLine.Mark
import PhpScaffold.CommandLine.Reading
import PhpScaffold.Config
import PhpScaffold.Config.Load
import PhpScaffold.Decimal.Places
import PhpScaffold.Decimal.Read
import PhpScaffold.Decimal.Shortest
import PhpScaffold.Decimal.Text
import PhpScaffold.Fault
import PhpScaffold.Files.Path
import PhpScaffold.Files.Tree
import PhpScaffold.Files.Utf8
import PhpScaffold.Generate
import PhpScaffold.Json.Read
import PhpScaffold.Json.Token
import PhpScaffold.Json.Write
import PhpScaffold.Text.Lines
import PhpScaffold.Log
import PhpScaffold.Log.Format
import PhpScaffold.Mapping
import PhpScaffold.Model.Edit
import PhpScaffold.Model.Element
import PhpScaffold.Model.File
import PhpScaffold.Model.Member
import PhpScaffold.Model.Operation
import PhpScaffold.Name
import PhpScaffold.Print.File
import PhpScaffold.Print.Member
import PhpScaffold.Print.Shorten
import PhpScaffold.Project
import PhpScaffold.Proofs.Blueprint.Twice
import PhpScaffold.Proofs.Except
import PhpScaffold.Proofs.Files.Growth
import PhpScaffold.Proofs.Generate.Batch
import PhpScaffold.Proofs.Generate.Preview
import PhpScaffold.Proofs.Import.Alias
import PhpScaffold.Proofs.Import.Meaning
import PhpScaffold.Proofs.Mapping.Override
import PhpScaffold.Proofs.Name
import PhpScaffold.Proofs.Print.Content
import PhpScaffold.Proofs.Text
import PhpScaffold.PropertyList
import PhpScaffold.Roster
import PhpScaffold.Seating
import PhpScaffold.Service
import PhpScaffold.Service.Message
import PhpScaffold.Service.Plain
import PhpScaffold.Table
import PhpScaffold.Template
import PhpScaffold.Template.Found
import PhpScaffold.Template.Read
import PhpScaffold.Template.Word
import PhpScaffold.Text.Blank
import PhpScaffold.Text.LetterCase
import PhpScaffold.Text.Lowercase
import PhpScaffold.Text.Printable
import PhpScaffold.Text.Surrogate
import PhpScaffold.Tool.Schema
import PhpScaffold.Tool.Slot
import PhpScaffold.Tool.Validate
import PhpScaffold.Value
import PhpScaffold.Yaml.Node
import PhpScaffold.Yaml.Read
import PhpScaffold.Yaml.Scalar
import PhpScaffold.Yaml.Scan
import PhpScaffold.Yaml.Tag
import PhpScaffold.Yaml.Token
import PhpScaffold.Main
import PhpScaffold.Proofs.Project.Build
import PhpScaffold.Proofs.Project.Keys
import PhpScaffold.Proofs.Blueprint.Placement
import PhpScaffold.Proofs.Print.Literal
import PhpScaffold.Proofs.Text.Feed
import PhpScaffold.Proofs.Print.Passage
import PhpScaffold.Proofs.Print.Surroundings
import PhpScaffold.Proofs.Print.Gap
import PhpScaffold.Proofs.Model.Run
import PhpScaffold.Proofs.Command.Consistency
import PhpScaffold.Proofs.Command.DataClass
import PhpScaffold.Proofs.Agreement
import PhpScaffold.Proofs.Service.Lookup
import PhpScaffold.Proofs.Config.Load
import PhpScaffold.Proofs.Tool.Schema
import PhpScaffold.Proofs.Mapping.Descent
import PhpScaffold.Proofs.Command.Inside
import PhpScaffold.Proofs.PropertyList.Grammar
import PhpScaffold.Proofs.Mapping.Longest
import PhpScaffold.Proofs.Lint
import PhpScaffold.Proofs.Print.Datum
import PhpScaffold.Proofs.Dependencies
import PhpScaffold.Proofs.Blueprint.History
import PhpScaffold.Proofs.Print.Erasure
import PhpScaffold.Proofs.CommandLine.Front
import PhpScaffold.Proofs.Name.Composite
import PhpScaffold.Proofs.Print.Width
import PhpScaffold.Proofs.Print.Comment
import PhpScaffold.Proofs.Print.Shortened
