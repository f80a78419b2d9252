import EnsembleFabric.ExactlyOnce
import EnsembleFabric.CommitGate
import EnsembleFabric.Settlement
import EnsembleFabric.Overtaking
import EnsembleFabric.Transitions
import EnsembleFabric.CandidateBound
import EnsembleFabric.Idempotence
import EnsembleFabric.LateEvidence
import EnsembleFabric.Staleness
import EnsembleFabric.Decision
import EnsembleFabric.Threshold
import EnsembleFabric.Votes
import EnsembleFabric.Verification
import EnsembleFabric.Fallback
import EnsembleFabric.Steady
import EnsembleFabric.FrameChannel
import EnsembleFabric.EvidenceOrder
import EnsembleFabric.Replacement
import EnsembleFabric.Permanence
import EnsembleFabric.Succession
import EnsembleFabric.PlannedOnce
import EnsembleFabric.Cooperation
import EnsembleFabric.MessageCodec
import EnsembleFabric.Retention
import EnsembleFabric.Restarting
import EnsembleFabric.SpecRoundTrip
import EnsembleFabric.Delivery
import EnsembleFabric.StateFile
import EnsembleFabric.Serving
import EnsembleFabric.Speaking
import EnsembleFabric.TieBreaks
import EnsembleFabric.VoteTies
import EnsembleFabric.Denominator
import EnsembleFabric.RepeatedFailure
import EnsembleFabric.Attempts
import EnsembleFabric.Restrictions
import EnsembleFabric.PublishedQuorum
import EnsembleFabric.LocalDriver
import EnsembleFabric.Worker
import EnsembleFabric.Deployments
import EnsembleFabric.Recovering
import EnsembleFabric.Overflow
import EnsembleFabric.Rejection
import EnsembleFabric.Fingerprint
import EnsembleFabric.Activation
import EnsembleFabric.Guard
import EnsembleFabric.Foresight
import EnsembleFabric.Accounting
import EnsembleFabric.EvaluationBound
import EnsembleFabric.Conformance
import EnsembleFabric.Answering
import EnsembleFabric.Checksum
import EnsembleFabric.Digest
import EnsembleFabric.Inheritance
import EnsembleFabric.Lineage
import EnsembleFabric.Storage
import EnsembleFabric.Replies
import EnsembleFabric.RemoteCalls
import EnsembleFabric.Reception
import EnsembleFabric.Durability
