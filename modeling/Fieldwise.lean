import Fieldwise.Error.Code
import Fieldwise.Faults
import Fieldwise.Inspection
import Fieldwise.Main
import Fieldwise.Sample
import Fieldwise.Service
import Fieldwise.Proofs.Outcome
import Fieldwise.Proofs.Reading.Closed
import Fieldwise.Proofs.Reading.Outline
import Fieldwise.Proofs.Reading.Traversal
import Fieldwise.Proofs.Reading.Records
import Fieldwise.Sample.Engine
import Fieldwise.Proofs.Service.Calls
import Fieldwise.Proofs.Service.Creation
import Fieldwise.Proofs.Service.FailedWrites
import Fieldwise.Proofs.Text.Numerals
import Fieldwise.Proofs.Json.Scanning
import Fieldwise.Proofs.Json.Building
import Fieldwise.Proofs.Catalog.Documents
import Fieldwise.Proofs.Calendar.DefaultFormats
import Fieldwise.Proofs.Conversion.Scalars
import Fieldwise.Proofs.Reading.Entries
import Fieldwise.Proofs.Registry.Paths
import Fieldwise.Proofs.Registry.Lawful
import Fieldwise.Proofs.Registry.Cells
import Fieldwise.Proofs.Registry.Ids
import Fieldwise.Proofs.Conversion.RoundTrip
import Fieldwise.Proofs.Service.Keys
import Fieldwise.Proofs.Service.ReadBack
import Fieldwise.Proofs.Reading.Formats
import Fieldwise.Proofs.Registry.Shapes
import Fieldwise.Proofs.Conversion.Assignments
import Fieldwise.Proofs.Conversion.Touched
import Fieldwise.Proofs.Registry.References
import Fieldwise.Proofs.Service.References
import Fieldwise.Proofs.Catalog.Index
import Fieldwise.Proofs.Catalog.Examination
import Fieldwise.Proofs.Catalog.Names
import Fieldwise.Proofs.Conversion.Fallbacks
import Fieldwise.Proofs.ExternalId.Strict
import Fieldwise.Proofs.ExternalId.Modes
import Fieldwise.Proofs.Service.Mandatory
import Fieldwise.Proofs.Json.PathReading
import Fieldwise.Proofs.Conversion.Influence
import Fieldwise.Proofs.Conversion.Collections
import Fieldwise.Proofs.Json.Positions
import Fieldwise.Proofs.Conversion.Returning
import Fieldwise.Proofs.Conversion.Integers
import Fieldwise.Proofs.Conversion.Decimals
import Fieldwise.Proofs.Calendar.Days
import Fieldwise.Proofs.Calendar.Timestamps
import Fieldwise.Proofs.Conversion.Dates
import Fieldwise.Proofs.Json.Layout
import Fieldwise.Proofs.Catalog.Versions
import Fieldwise.Proofs.Catalog.Repeats
import Fieldwise.Proofs.Registry.Soundness
import Fieldwise.Proofs.Registry.Registration
import Fieldwise.Proofs.Instantiation
import Fieldwise.Proofs.Conversion.EntryOrder
import Fieldwise.Proofs.Service.EntryOrder
import Fieldwise.Proofs.Reading.KnownPaths
import Fieldwise.Proofs.Registry.WrittenCells
import Fieldwise.Conversion.ActiveReading
