import PrimaryElection.Capability
import PrimaryElection.Cluster
import PrimaryElection.Monitor
import PrimaryElection.Proofs.Broadcast
import PrimaryElection.Proofs.Layout
import PrimaryElection.Proofs.Settled
import PrimaryElection.Proofs.SinglePrimary
import PrimaryElection.Proofs.Turns
import PrimaryElection.Proofs.Views
import PrimaryElection.Proofs.Evolution
import PrimaryElection.Proofs.Rounds
import PrimaryElection.Proofs.Delivery
import PrimaryElection.Proofs.Polling
import PrimaryElection.Proofs.Bookkeeping
import PrimaryElection.Proofs.Held
import PrimaryElection.Proofs.Legality
import PrimaryElection.Proofs.Indifference
import PrimaryElection.Proofs.Detours
import PrimaryElection.Proofs.Reentrance
import PrimaryElection.Proofs.Gauges
import PrimaryElection.Proofs.Membership
import PrimaryElection.Proofs.Faults
import PrimaryElection.Proofs.Requests
import PrimaryElection.Proofs.Submission
import PrimaryElection.Proofs.Policy
import PrimaryElection.Proofs.Completion
import PrimaryElection.Proofs.Homecoming
import PrimaryElection.Proofs.Snapshots
import PrimaryElection.Proofs.Conflicts
import PrimaryElection.Proofs.Shuffling
import PrimaryElection.Proofs.Truncation
import PrimaryElection.Proofs.ReadBack
import PrimaryElection.Proofs.Designation
import PrimaryElection.Proofs.Naming
import PrimaryElection.Proofs.Offsets
import PrimaryElection.Proofs.Totals
import PrimaryElection.Proofs.Observation
import PrimaryElection.Proofs.Reporting
