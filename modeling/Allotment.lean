import Allotment.Config.EnvFile
import Allotment.Proofs.Balance
import Allotment.Proofs.Conservation
import Allotment.Proofs.Consultation
import Allotment.Proofs.Exclusion
import Allotment.Proofs.Expansion
import Allotment.Proofs.Faults
import Allotment.Proofs.Freshness
import Allotment.Proofs.GateRuns
import Allotment.Proofs.Independence
import Allotment.Proofs.Isolation
import Allotment.Proofs.Loading
import Allotment.Proofs.Overtaking
import Allotment.Proofs.Parsing
import Allotment.Proofs.Precedence
import Allotment.Proofs.Preparation
import Allotment.Proofs.Quiescence
import Allotment.Proofs.Rank
import Allotment.Proofs.Readiness
import Allotment.Proofs.Releases
import Allotment.Proofs.Repetition
import Allotment.Proofs.Reports
import Allotment.Proofs.Rollback
import Allotment.Proofs.RoundTrip
import Allotment.Proofs.Rounds
import Allotment.Proofs.Scanning
import Allotment.Proofs.Shutdown
import Allotment.Proofs.Succession
import Allotment.Proofs.Tentative
import Allotment.Proofs.Tenure
import Allotment.Proofs.Trail
import Allotment.Proofs.Units
import Allotment.Proofs.Wakeups
import Allotment.Proofs.Withdrawal
import Allotment.Records
import Allotment.Rehearsal.Stage
import Allotment.Scheduler
import Allotment.Text.Show
import Allotment.Reservations
