import CommandExpr.Main
import CommandExpr.Proofs.Places
import CommandExpr.Proofs.Faults
import CommandExpr.Proofs.RelayLifetime
import CommandExpr.Proofs.Bounded
import CommandExpr.Proofs.Grammar
import CommandExpr.Proofs.PlainWords
import CommandExpr.Proofs.Courses
import CommandExpr.Proofs.Regrouping
import CommandExpr.Proofs.Unwinding
import CommandExpr.Proofs.PipeRegrouping
import CommandExpr.Proofs.TypedWords
import CommandExpr.Proofs.Exclusivity
import CommandExpr.Proofs.Capacity
import CommandExpr.Proofs.NameIndependence
import CommandExpr.Proofs.Accounting
import CommandExpr.Proofs.Draining
import CommandExpr.Proofs.Echoing
import CommandExpr.Proofs.Acceptance
import CommandExpr.Proofs.Arguments
import CommandExpr.Proofs.Catalog
import CommandExpr.Proofs.FirstFree
import CommandExpr.Proofs.Removals
import CommandExpr.Proofs.FixedPoint
import CommandExpr.Proofs.Reaping
import CommandExpr.Proofs.Collecting
import CommandExpr.Proofs.Handshake
import CommandExpr.Proofs.Rereading
import CommandExpr.Proofs.Legibility
import CommandExpr.Proofs.Layers
import CommandExpr.Proofs.Deadlines
import CommandExpr.Proofs.Offers
