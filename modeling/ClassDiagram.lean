import ClassDiagram.Connector
import ClassDiagram.Main
import ClassDiagram.Model.Operation
import ClassDiagram.Notation.Block
import ClassDiagram.Proofs.Notation.Block
import ClassDiagram.Proofs.Project.RoundTrip
import ClassDiagram.Model.InPlace
import ClassDiagram.Proofs.Model.Refusal
import ClassDiagram.Proofs.Model.Members
import ClassDiagram.Proofs.Model.Lifetime
import ClassDiagram.Proofs.Model.Atomic
import ClassDiagram.Proofs.FirstFault
import ClassDiagram.Proofs.Project.Faults
import ClassDiagram.Proofs.Declaration.Rendering
import ClassDiagram.Proofs.Model.Removal
import ClassDiagram.Proofs.Model.Locality
import ClassDiagram.Proofs.Connector
import ClassDiagram.Proofs.Declaration.Entries
import ClassDiagram.Proofs.Project.Document
import ClassDiagram.Proofs.Notation.Gaps
import ClassDiagram.Proofs.Route.Routing
import ClassDiagram.Proofs.Route.Parallels
import ClassDiagram.Proofs.Route.Reversal
import ClassDiagram.Proofs.Route.Separation
import ClassDiagram.Proofs.Route.Direction
import ClassDiagram.Proofs.Preview.ViewBox
import ClassDiagram.Proofs.Declaration.Moves
import ClassDiagram.Proofs.Declaration.LineBreaks
import ClassDiagram.Proofs.Project.KeySearch
import ClassDiagram.Proofs.CommandLine.Delivery
