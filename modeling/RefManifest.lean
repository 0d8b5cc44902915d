import RefManifest.Main
import RefManifest.Manifest.Reader
import RefManifest.Proofs.Hierarchy.Conflict
import RefManifest.Proofs.Hierarchy.Grouping
import RefManifest.Proofs.Hierarchy.Growth
import RefManifest.Proofs.UpToDate
import RefManifest.Proofs.Templates
import RefManifest.Proofs.Modes
import RefManifest.Proofs.Naming
import RefManifest.Proofs.Effects
import RefManifest.Proofs.Commands
import RefManifest.Proofs.OutOfDate
import RefManifest.Proofs.Disk.Spelling
import RefManifest.Proofs.DefaultOutput
import RefManifest.Proofs.Rerun
import RefManifest.Proofs.LastDeclaration
import RefManifest.Proofs.Json.Document
import RefManifest.Proofs.Json.Manifest
import RefManifest.Proofs.Relocation
import RefManifest.Proofs.Yaml.Quoted
import RefManifest.Proofs.Yaml.Scalar
import RefManifest.Proofs.Yaml.Indentation
import RefManifest.Proofs.Yaml.Row
import RefManifest.Proofs.Yaml.Manifest
import RefManifest.Proofs.Yaml.Rendering
import RefManifest.Proofs.Identity
import RefManifest.Proofs.Report
import RefManifest.Proofs.Text.Blank
import RefManifest.Proofs.Grammar
import RefManifest.Proofs.Extraction
import RefManifest.Proofs.Text.Line
import RefManifest.Proofs.LineByLine
import RefManifest.Proofs.Hierarchy.Order
import RefManifest.Proofs.Resolution
import RefManifest.Proofs.Glob.Match
import RefManifest.Proofs.Excludes
import RefManifest.Proofs.Disk.Temporary
import RefManifest.Proofs.Atomicity
import RefManifest.Proofs.CommandLine.Occurrences
import RefManifest.Proofs.CommandLine.Layers
import RefManifest.Proofs.SlashForm
import RefManifest.Proofs.Config
import RefManifest.Proofs.Log.Setting
