import Netscribe.Board.Json
import Netscribe.Diagnostic.Log
import Netscribe.Files.Tree
import Netscribe.Generation.Store
import Netscribe.Main
import Netscribe.Proofs.Data.Lists
import Netscribe.Proofs.Text.Identifier
import Netscribe.Proofs.Hdl.PortMap
import Netscribe.Proofs.Hdl.Reference
import Netscribe.Proofs.Netlist.Root
import Netscribe.Proofs.Netlist.Sound
import Netscribe.Proofs.Netlist.View
import Netscribe.Proofs.Netlist.Walk
import Netscribe.Proofs.Netlist.Range
import Netscribe.Proofs.Circuit.Signals
import Netscribe.Proofs.Circuit.Terminal
import Netscribe.Proofs.Circuit.PortMap
import Netscribe.Proofs.Circuit.Naming
import Netscribe.Proofs.Circuit.Parts
import Netscribe.Proofs.Circuit.References
import Netscribe.Proofs.Hdl.Statement
import Netscribe.Proofs.Circuit.ForcedRoots
import Netscribe.Proofs.Hdl.Formula
import Netscribe.Proofs.Primitive.Gate
import Netscribe.Proofs.Circuit.Interface
import Netscribe.Proofs.Circuit.Generable
import Netscribe.Proofs.Circuit.Faults
import Netscribe.Proofs.Design.Hierarchy
import Netscribe.Proofs.Design.Acyclic
import Netscribe.Proofs.Design.Search
import Netscribe.Proofs.Design.WellFormed
import Netscribe.Proofs.Circuit.Connected
import Netscribe.Proofs.Generation.Listing
import Netscribe.Proofs.Generation.Coverage
import Netscribe.Proofs.Generation.Attempt
import Netscribe.Proofs.Generation.Course
import Netscribe.Proofs.Generation.Offers
import Netscribe.Proofs.Generation.Completeness
import Netscribe.Proofs.Generation.Machine
import Netscribe.Proofs.Generation.Reports
import Netscribe.Proofs.Generation.Depth
import Netscribe.Proofs.Generation.Success
import Netscribe.Proofs.Circuit.Aliases
import Netscribe.Proofs.Circuit.Declared
import Netscribe.Proofs.Generation.Visits
import Netscribe.Proofs.Hdl.Size
import Netscribe.Proofs.Circuit.Actuals
import Netscribe.Proofs.Generation.Refusal
import Netscribe.Proofs.Generation.Storing
import Netscribe.Proofs.Generation.Languages
import Netscribe.Proofs.Generation.Locality
import Netscribe.Proofs.Board.Ownership
import Netscribe.Proofs.Board.Binding
import Netscribe.Proofs.Json.Text
import Netscribe.Proofs.Json.Shape
import Netscribe.Proofs.Netlist.Json
import Netscribe.Proofs.Design.Json
import Netscribe.Proofs.Files.Path
import Netscribe.Proofs.Generation.Files
import Netscribe.Proofs.Generation.Writing
import Netscribe.Proofs.Files.Tree
import Netscribe.Proofs.Generation.Trees
import Netscribe.Proofs.Circuit.Clocks
import Netscribe.Proofs.Hdl.Bracketed
import Netscribe.Proofs.Hdl.Headers
import Netscribe.Proofs.Circuit.Components
import Netscribe.Proofs.Hdl.PortList
import Netscribe.Proofs.Text.Order
import Netscribe.Proofs.Circuit.InstanceLines
import Netscribe.Proofs.Text.Words
import Netscribe.Proofs.Text.Fill
import Netscribe.Proofs.Hdl.Remark
import Netscribe.Proofs.Circuit.Labels
import Netscribe.Proofs.Circuit.LegalNames
import Netscribe.Proofs.Command.Generate
import Netscribe.Proofs.Circuit.Lookup
import Netscribe.Proofs.Diagnostic.History
import Netscribe.Proofs.Generation.Primitives
