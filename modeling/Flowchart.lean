import Flowchart.Scanner
import Flowchart.Cursor
import Flowchart.Mermaid
import Flowchart.Review
import Flowchart.Schema.Statement
import Flowchart.Settings
import Flowchart.Yaml.Load
import Flowchart.FileTree.Resolve
import Flowchart.Settings.File
import Flowchart.Preview
import Flowchart.Main
import Flowchart.Text.LowerCase
import Flowchart.Yaml.Document
import Flowchart.Yaml.Merge
import Flowchart.Proofs.Runs
import Flowchart.Proofs.Lexical
import Flowchart.Proofs.DeadEnds
import Flowchart.Proofs.Calls
import Flowchart.Proofs.Grammar
import Flowchart.Proofs.LineCuts
import Flowchart.Proofs.Document
import Flowchart.Proofs.Generation
import Flowchart.Proofs.Layout
import Flowchart.Proofs.Relabel
import Flowchart.Proofs.Concatenation
import Flowchart.Proofs.Clauses
import Flowchart.Proofs.Envelope
import Flowchart.Proofs.Lookalikes
import Flowchart.Proofs.FileEffects
import Flowchart.Proofs.Resolution
import Flowchart.Proofs.SafeBuild
import Flowchart.Proofs.LineOrder
import Flowchart.Proofs.Review
import Flowchart.Proofs.ReviewOrder
import Flowchart.Proofs.Agreement
import Flowchart.Proofs.Encoding
import Flowchart.Proofs.LineNumbers
import Flowchart.Proofs.Violations
import Flowchart.Proofs.Lookups
import Flowchart.Proofs.Locations
import Flowchart.Proofs.Reports
import Flowchart.Proofs.YamlReading
import Flowchart.Proofs.YamlValues
import Flowchart.Proofs.SettingsFaults
import Flowchart.Proofs.OutputPaths
import Flowchart.Proofs.Json
import Flowchart.Proofs.SettingsSchema
import Flowchart.Proofs.CursorSteps
import Flowchart.Proofs.ScannerSteps
import Flowchart.Proofs.StatementSchema
import Flowchart.Proofs.YamlLines
import Flowchart.Proofs.SettingsText
