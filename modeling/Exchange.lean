import Exchange.Pipeline.Source
import Exchange.Proofs.Multipart.Agreement
import Exchange.Proofs.Multipart.Conduit.Order
import Exchange.Proofs.Multipart.Conduit.Refinement
import Exchange.Proofs.Multipart.Conduit.Verdict
import Exchange.Proofs.Multipart.Conduit.Whereabouts
import Exchange.Proofs.Multipart.Filling
import Exchange.Proofs.Multipart.FlowControl
import Exchange.Proofs.Multipart.Holdings
import Exchange.Proofs.Multipart.Rechunking
import Exchange.Proofs.Multipart.Restored
import Exchange.Proofs.Multipart.Returned
import Exchange.Proofs.Multipart.Rounds
import Exchange.Proofs.Multipart.Termination
import Exchange.Proofs.Pipeline.Assembly
import Exchange.Proofs.Pipeline.Consumption
import Exchange.Proofs.Pipeline.Containment
import Exchange.Proofs.Pipeline.Coverage
import Exchange.Proofs.Pipeline.Enrolment
import Exchange.Proofs.Pipeline.Guards
import Exchange.Proofs.Pipeline.Integrity
import Exchange.Proofs.Pipeline.Nesting
import Exchange.Proofs.Pipeline.Selection
import Exchange.Proofs.Pipeline.Transparency
import Exchange.Proofs.Pipeline.Traversal
import Exchange.Proofs.Server.Lifecycle
import Exchange.Proofs.Server.Series
import Exchange.Proofs.Server.Surfacing
import Exchange.Script.Actor
import Exchange.Server
import Exchange.Settings.Logger
import Exchange.Text.Utf8
