import FlowCalibration.Main
import FlowCalibration.CommandLine.Outcome
import FlowCalibration.Proofs.Settings.Layers
import FlowCalibration.Proofs.Tower.Accounting
import FlowCalibration.Proofs.Tower.PrinterName
import FlowCalibration.Proofs.Tower.Heating
import FlowCalibration.Proofs.Decimal.Order
import FlowCalibration.Proofs.Program.Printing
import FlowCalibration.Proofs.Tower.Exclusion
import FlowCalibration.Proofs.Decimal.Quotient
import FlowCalibration.Proofs.Decimal.Counts
import FlowCalibration.Proofs.Settings.Finite
import FlowCalibration.Proofs.Files.Workspace
import FlowCalibration.Proofs.Json.RoundTrip
import FlowCalibration.Proofs.Toml.RoundTrip
import FlowCalibration.Proofs.Settings.Members
import FlowCalibration.Proofs.Settings.Saving
import FlowCalibration.Proofs.Program.Continuity
import FlowCalibration.Proofs.Program.Editing
import FlowCalibration.Proofs.Tower.Grammar
import FlowCalibration.Proofs.Preview.Numbers
import FlowCalibration.Proofs.Preview.Layers
import FlowCalibration.Proofs.Preview.Bounds
import FlowCalibration.Proofs.Preview.Elements
import FlowCalibration.Proofs.Preview.Picture
import FlowCalibration.Proofs.Data.Results
import FlowCalibration.Proofs.Printer.Normalize
import FlowCalibration.Proofs.Printer.Catalog
import FlowCalibration.Proofs.Tower.Listing
import FlowCalibration.Proofs.Printer.Serialization
import FlowCalibration.Proofs.Archive.Packing
import FlowCalibration.Proofs.CommandLine.Generation
import FlowCalibration.Proofs.Data.Words
import FlowCalibration.Proofs.Tower.Overflow
import FlowCalibration.Proofs.Tower.Margins
import FlowCalibration.Proofs.Tower.Labels
import FlowCalibration.Proofs.Tower.EndFlow
import FlowCalibration.Proofs.Tower.Cells
import FlowCalibration.Proofs.Printer.Selection
import FlowCalibration.Proofs.Printer.Shapes
import FlowCalibration.Proofs.Preview.Anchors
import FlowCalibration.Proofs.Program.Independence
import FlowCalibration.Proofs.Preview.Sizes
import FlowCalibration.Proofs.Settings.Relevance
import FlowCalibration.Proofs.Settings.History
import FlowCalibration.Proofs.Program.Messages
import FlowCalibration.Proofs.Program.LastWords
import FlowCalibration.Proofs.Decimal.Grammar
import FlowCalibration.Proofs.Preview.Patterns
import FlowCalibration.Proofs.Archive.Slugs
