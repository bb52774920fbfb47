import Interlocking.Arena.Program
import Interlocking.Json.Reader
import Interlocking.Machine
import Interlocking.Program.Format
import Interlocking.Program.Listing
import Interlocking.Proofs.Search
import Interlocking.Proofs.Monadic
import Interlocking.Proofs.Allocation
import Interlocking.Proofs.Representation
import Interlocking.Proofs.Lookups
import Interlocking.Proofs.Roles
import Interlocking.Proofs.Drafts
import Interlocking.Proofs.Additions
import Interlocking.Proofs.Construction
import Interlocking.Proofs.Declarations
import Interlocking.Proofs.Yard
import Interlocking.Proofs.Registry
import Interlocking.Proofs.Formation
import Interlocking.Proofs.Execution
import Interlocking.Proofs.Panel
import Interlocking.Proofs.Reservation
import Interlocking.Proofs.RuleOrder
import Interlocking.Proofs.PassageRules
import Interlocking.Proofs.PieceRules
import Interlocking.Proofs.SourceRules
import Interlocking.Proofs.ArbiterRules
import Interlocking.Proofs.TurnoutRules
import Interlocking.Proofs.Operation
import Interlocking.Proofs.RouteSafety
import Interlocking.Proofs.Deeds
import Interlocking.Proofs.Duties
import Interlocking.Proofs.Vocabulary
import Interlocking.Proofs.Chains
import Interlocking.Proofs.Turns
import Interlocking.Proofs.Vacancy
import Interlocking.Proofs.TrainFree
import Interlocking.Proofs.Rest
import Interlocking.Proofs.Alertness
import Interlocking.Proofs.Stillness
import Interlocking.Proofs.Addresses
import Interlocking.Proofs.RouteIntegrity
import Interlocking.Proofs.Unanswered
import Interlocking.Proofs.Waves
import Interlocking.Proofs.Settling
import Interlocking.Proofs.Tracks
import Interlocking.Proofs.Line
import Interlocking.Proofs.LineCycles
import Interlocking.Proofs.EndToEnd
import Interlocking.Proofs.Views
import Interlocking.Proofs.Distinctness
import Interlocking.Proofs.Arbitration
import Interlocking.Proofs.Journeys
import Interlocking.Proofs.Cycles
import Interlocking.Proofs.Permission
import Interlocking.Proofs.Exclusion
import Interlocking.Proofs.Measurement
import Interlocking.Proofs.Debouncing
import Interlocking.Proofs.Recovery
import Interlocking.Proofs.Departure
import Interlocking.Proofs.Fairness
import Interlocking.Proofs.Ownership
import Interlocking.Proofs.Commutation
import Interlocking.Proofs.Compilation
import Interlocking.Proofs.Storage
import Interlocking.Proofs.StoredRules
import Interlocking.Proofs.StoredPlans
import Interlocking.Proofs.Depot
import Interlocking.Proofs.Totality
import Interlocking.Proofs.Custody
import Interlocking.Proofs.Strokes
import Interlocking.Proofs.Bookkeeping
import Interlocking.Proofs.Whereabouts
import Interlocking.Proofs.Sightings
import Interlocking.Proofs.Detection
import Interlocking.Proofs.Export
import Interlocking.Proofs.Aspect
import Interlocking.Proofs.Requests
import Interlocking.Proofs.Quiescence
import Interlocking.Proofs.Overruns
