import Protoscribe.Main
import Protoscribe.Files.Tree
import Protoscribe.Registry.Draft
import Protoscribe.Registry.Encode
import Protoscribe.Proofs.OrderedMap.Run
import Protoscribe.Proofs.FirstFault
import Protoscribe.Proofs.Plan.Faults
import Protoscribe.Proofs.Plan.Outcome
import Protoscribe.Proofs.Proto.Layout
import Protoscribe.Proofs.Plan.Compose
import Protoscribe.Proofs.Proto.Grammar
import Protoscribe.Proofs.Plan.Conformance
import Protoscribe.Proofs.Json.Reading
import Protoscribe.Proofs.Decode.Mirror
import Protoscribe.Proofs.Json.Mirror
import Protoscribe.Proofs.Registry.RoundTrip
import Protoscribe.Proofs.Registry.Check
import Protoscribe.Proofs.Plan.Defaults
import Protoscribe.Proofs.Proto.Reader
import Protoscribe.Proofs.Plan.Clash
import Protoscribe.Proofs.Plan.FieldNames
import Protoscribe.Proofs.Plan.StructImport
import Protoscribe.Proofs.Plan.Revision
import Protoscribe.Proofs.Files.Growth
import Protoscribe.Proofs.Output
import Protoscribe.Proofs.Registry.Parse
import Protoscribe.Proofs.Plan.Contents
import Protoscribe.Proofs.Plan.Independence
import Protoscribe.Proofs.Writer
import Protoscribe.Proofs.Plan.RpcType
import Protoscribe.Proofs.Plan.BlockNames
import Protoscribe.Proofs.Json.Record
import Protoscribe.Proofs.Json.Presentation
import Protoscribe.Proofs.Registry.Presentation
import Protoscribe.Proofs.Files.Extension
import Protoscribe.Proofs.Registry.Selection
import Protoscribe.Proofs.Registry.Detect
import Protoscribe.Proofs.Inspection
import Protoscribe.Proofs.Yaml.Row
import Protoscribe.Proofs.Yaml.Scan
import Protoscribe.Proofs.Yaml.Compact
import Protoscribe.Proofs.Yaml.Mirror
import Protoscribe.Proofs.Registry.Formats
