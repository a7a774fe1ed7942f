import PrimaryElection.Election
import PrimaryElection.Metrics.Snapshot
import PrimaryElection.Node.Phase
import PrimaryElection.Outcome.Codec
import PrimaryElection.Settings

namespace PrimaryElection

def noEpoch : Int := -1

structure Acceptance where
  epoch : Int
  memberId : MemberId
  outcome : Outcome
  deriving DecidableEq, Repr

structure Node where
  config : Config
  phase : Phase := .joining
  accepted : Option Acceptance := none
  rejoinNeeded : Bool := true
  metrics : Metrics.Snapshot := {}
  deriving Inhabited

structure Status where
  phase : Phase
  epoch : Int
  memberId : Option MemberId
  isPrimary : Option Bool
  isPrimaryEligible : Value
  primaryId : Option MemberId
  primaryUrl : Option String
  failed : Bool
  rejoinNeeded : Bool

namespace Node

def epoch (n : Node) : Int := (n.accepted.map Acceptance.epoch).getD noEpoch

def memberId (n : Node) : Option MemberId := n.accepted.map Acceptance.memberId

def outcome (n : Node) : Option Outcome := n.accepted.map Acceptance.outcome

def isPrimary (n : Node) : Option Bool :=
  if n.phase = .active then n.outcome.map fun o => o.isPrimary n.memberId else none

def status (n : Node) : Status where
  phase := n.phase
  epoch := n.epoch
  memberId := n.memberId
  isPrimary := n.isPrimary
  isPrimaryEligible := n.config.settings.primaryEligible
  primaryId := n.outcome.bind Outcome.primaryId?
  primaryUrl := (n.outcome.bind Outcome.primaryIdentity?).map fun i => i.url n.config.scheme.name
  failed := (n.outcome.map Outcome.failed).getD false
  rejoinNeeded := n.rejoinNeeded

end Node

end PrimaryElection
