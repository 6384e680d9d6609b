import TableExport.Literal.Json
import TableExport.Literal.Lua
import TableExport.Literal.Plain
import TableExport.Lua.IndexLoop
import TableExport.Main
import TableExport.Printer.Recording
import TableExport.Printer.Samples
import TableExport.Printer.Session
import TableExport.Text.Difference
import TableExport.Proofs.Json.RoundTrip
import TableExport.Proofs.Lua.RecordKeys
import TableExport.Proofs.Lua.IndexLines
import TableExport.Proofs.Lua.Namespace
import TableExport.Proofs.Printer.Keys
import TableExport.Proofs.Document.Shape
import TableExport.Proofs.Json.Lexeme
import TableExport.Proofs.Json.Reading
import TableExport.Proofs.Json.Written
import TableExport.Proofs.Document.Wire
import TableExport.Proofs.Document.RoundTrip
import TableExport.Proofs.Files.Path
import TableExport.Proofs.Project.Outputs
import TableExport.Proofs.Files.Writing
import TableExport.Proofs.Printer.Registry
import TableExport.Proofs.Project.Render
import TableExport.Proofs.CommandLine.Render
import TableExport.Proofs.Files.Location
import TableExport.Proofs.Printer.Visible
import TableExport.Proofs.Json.Outline
import TableExport.Proofs.Json.Passing
import TableExport.Proofs.Project.Again
import TableExport.Proofs.Json.Form
import TableExport.Proofs.Json.Container
import TableExport.Proofs.Json.RecordForm
import TableExport.Proofs.Document.Part
import TableExport.Proofs.Document.Members
import TableExport.Proofs.Document.Spelling
import TableExport.Proofs.Index.Walk
import TableExport.Proofs.Document.Violation
import TableExport.Proofs.Render.Partial
import TableExport.Proofs.Lua.ByteLexis
import TableExport.Proofs.Lua.Spelling
import TableExport.Proofs.Text.Utf8
import TableExport.Proofs.Text.Position
import TableExport.Proofs.Text.PascalCase
import TableExport.Proofs.Layout.Rows
import TableExport.Proofs.Files.Respelling
import TableExport.Proofs.Project.Validation
import TableExport.Proofs.Render.Lines
import TableExport.Proofs.Printer.Levels
import TableExport.Proofs.Files.Effect
import TableExport.Proofs.Text.Difference
