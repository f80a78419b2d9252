import EnsembleFabric.ResultCodec
import EnsembleFabric.SpecRoundTrip

/-!
# What crosses the wire as a result

The decoder of a result takes what the encoder writes for it back if and
only if every part is within the bounds of the decoder
(`EnsembleResult.Fits`), and what it reads is the result itself.

The bounds include the ranges of the source's types: a counter is below
`2 ^ 32`, a text is a text of bytes. A result of the runtime is within
these as long as its counters have not grown past their words; its other
parts may still be too many for the decoder, which counts participants,
candidates, evaluations, explanation lines and notes against the limits.

Each part has a `Fits` of its own and one lemma that its reader is exact
under it; `decodeResultPayload_eq_ok` is put together from them. Deployments
are compared with its help, since a client sees the results that come back.
-/

namespace EnsembleFabric

open Decoder (u16_exact u32_exact u64_exact boolean_exact f64_exact bytes_exact list_exact i64_exact
  counter_exact)
open Write (flat)

attribute [ext] QuorumReport ConsensusReport RankingFactorValue CandidateRanking ArbitrationReport
  CandidateSnapshot EvaluationSnapshot ParticipantOutcome ExplanationEntry EnsembleResult

/-! ## Enumerators -/

theorem quorumState_exact (what : String) :
    Exact (getEnum QuorumState.cast what) (fun _ => True) fun state => Encoder.u8 state.number :=
  getEnum_exact (fun state => by cases state <;> decide) (fun state => by cases state <;> rfl)
    (by decide) what

theorem consensusState_exact (what : String) :
    Exact (getEnum ConsensusState.cast what) (fun _ => True)
      fun state => Encoder.u8 state.number :=
  getEnum_exact (fun state => by cases state <;> decide) (fun state => by cases state <;> rfl)
    (by decide) what

theorem eliminationReason_exact (what : String) :
    Exact (getEnum EliminationReason.cast what) (fun _ => True)
      fun reason => Encoder.u8 reason.number :=
  getEnum_exact (fun reason => by cases reason <;> decide) (fun reason => by cases reason <;> rfl)
    (by decide) what

theorem candidateState_exact (what : String) :
    Exact (getEnum CandidateState.cast what) (fun _ => True)
      fun state => Encoder.u8 state.number :=
  getEnum_exact (fun state => by cases state <;> decide) (fun state => by cases state <;> rfl)
    (by decide) what

theorem participantStatus_exact (what : String) :
    Exact (getEnum ParticipantStatus.cast what) (fun _ => True)
      fun status => Encoder.u8 status.number :=
  getEnum_exact (fun status => by cases status <;> decide) (fun status => by cases status <;> rfl)
    (by decide) what

theorem EnsembleError.cast_number (code : EnsembleError) :
    EnsembleError.cast code.number = some code := by
  cases code <;> rfl

theorem failure_exact (message : String) :
    Exact (Decoder.enum Decoder.u16 EnsembleError.cast message) (fun _ => True)
      fun code => Encoder.u16 code.number := by
  refine enum_exact message u16_exact fun code value => ?_
  rw [and_true]
  constructor
  · intro h
    rw [EnsembleError.cast] at h
    have hnumber := List.find?_some h
    exact beq_iff_eq.mp hnumber
  · rintro rfl
    exact code.cast_number

/-! ## Reports -/

/-- The counters of a report that the source keeps in 32 bits. -/
def QuorumReport.counters (r : QuorumReport) : List Nat :=
  [r.denominator, r.contributors, r.abstentions, r.failures, r.excludedOptional,
    r.excludedUnavailable, r.excludedStale, r.requiredTotal, r.requiredPresent, r.evaluations,
    r.validCandidates, r.duplicateVotesSuppressed, r.staleVotesRejected, r.thresholdCount,
    r.leadingVotes, r.roleQuotaMet, r.roleQuotaRequired]

/-- The lengths of the participant lists of a report. -/
def QuorumReport.listLengths (r : QuorumReport) : List Nat :=
  [r.members.length, r.memberGenerations.length, r.contributorsList.length,
    r.abstainingMembers.length, r.failedMembers.length]

/-- So many notes, each within the bound of a text. -/
def NotesFit (limits : Limits) (notes : List String) : Prop :=
  notes.length ≤ limits.maxExplanationEntries.toNat
    ∧ ∀ note ∈ notes, TextFits limits.maxMetadataBytes note

def QuorumReport.Fits (limits : Limits) (r : QuorumReport) : Prop :=
  (∀ n ∈ r.counters, n < 2 ^ 32)
    ∧ (∀ n ∈ r.listLengths, n ≤ limits.maxParticipantsPerEnsemble.toNat) ∧ NotesFit limits r.notes

theorem getIdList_exact (maxCount : UInt32) :
    Exact (getIdList maxCount) (fun ids => ids.length ≤ maxCount.toNat) putIdList :=
  .congr (list_exact getId_exact _ _) fun ids => by simp

theorem getNotes_exact (limits : Limits) (what : String) :
    Exact (getNotes limits what) (NotesFit limits) (Encoder.list putText) :=
  list_exact (getString_exact _ _) _ _

theorem getQuorumReport_exact (limits : Limits) :
    Exact (getQuorumReport limits) (QuorumReport.Fits limits) putQuorumReport := by
  refine .congr (.field (quorumState_exact _) fun state _ =>
      .field (voteBasis_exact _) fun basis _ =>
      .field counter_exact fun denominator _ => .field counter_exact fun contributors _ =>
      .field counter_exact fun abstentions _ => .field counter_exact fun failures _ =>
      .field counter_exact fun optional _ => .field counter_exact fun unavailable _ =>
      .field counter_exact fun stale _ => .field counter_exact fun requiredTotal _ =>
      .field counter_exact fun requiredPresent _ => .field counter_exact fun evaluations _ =>
      .field counter_exact fun valid _ => .field counter_exact fun duplicates _ =>
      .field counter_exact fun rejected _ => .field u32_exact fun percent _ =>
      .field counter_exact fun threshold _ => .field counter_exact fun leading _ =>
      .field counter_exact fun quotaMet _ => .field counter_exact fun quotaRequired _ =>
      .field boolean_exact fun failureBudget _ => .field boolean_exact fun abstentionBudget _ =>
      .field getId_exact fun generation _ => .field getId_exact fun epoch _ =>
      .field getId_exact fun sequence _ => .field (getIdList_exact _) fun members _ =>
      .field (list_exact getId_exact _ _) fun generations _ =>
      .field (getIdList_exact _) fun contributorsList _ =>
      .field (getIdList_exact _) fun abstaining _ => .field (getIdList_exact _) fun failed _ =>
      .field (getNotes_exact _ _) fun notes _ => .done fun r => ?_) fun r => ?_
  · simp [QuorumReport.ext_iff, and_assoc]
  · simp [QuorumReport.Fits, QuorumReport.counters, QuorumReport.listLengths, and_assoc]

def ConsensusReport.counters (r : ConsensusReport) : List Nat :=
  [r.agreeing, r.disagreeing, r.abstaining, r.missing, r.invalidCandidates, r.eligibleCandidates,
    r.candidatesDeclared, r.thresholdCount, r.voteBasis, r.runnerUpVotes]

def ConsensusReport.listLengths (r : ConsensusReport) : List Nat :=
  [r.agreeingMembers.length, r.disagreeingMembers.length, r.abstainingMembers.length,
    r.missingMembers.length]

def ConsensusReport.Fits (limits : Limits) (r : ConsensusReport) : Prop :=
  (∀ n ∈ r.counters, n < 2 ^ 32)
    ∧ (∀ n ∈ r.listLengths, n ≤ limits.maxParticipantsPerEnsemble.toNat)
    ∧ r.eligibleCandidatesList.length ≤ limits.maxCandidatesPerExecution.toNat

theorem getConsensusReport_exact (limits : Limits) :
    Exact (getConsensusReport limits) (ConsensusReport.Fits limits) putConsensusReport := by
  refine .congr (.field (consensusState_exact _) fun state _ =>
      .field getId_exact fun leading _ => .field getId_exact fun leadingGeneration _ =>
      .field getId_exact fun leadingParticipant _ =>
      .field counter_exact fun agreeing _ => .field counter_exact fun disagreeing _ =>
      .field counter_exact fun abstaining _ => .field counter_exact fun missing _ =>
      .field counter_exact fun invalid _ => .field counter_exact fun eligible _ =>
      .field counter_exact fun declared _ => .field u32_exact fun percent _ =>
      .field counter_exact fun threshold _ => .field counter_exact fun basis _ =>
      .field counter_exact fun runnerUp _ => .field boolean_exact fun unresolved _ =>
      .field getId_exact fun generation _ => .field getId_exact fun epoch _ =>
      .field getId_exact fun sequence _ => .field (getIdList_exact _) fun agreeingMembers _ =>
      .field (getIdList_exact _) fun disagreeingMembers _ =>
      .field (getIdList_exact _) fun abstainingMembers _ =>
      .field (getIdList_exact _) fun missingMembers _ =>
      .field (list_exact getId_exact _ _) fun candidates _ => .done fun r => ?_) fun r => ?_
  · simp [ConsensusReport.ext_iff, and_assoc]
  · simp [ConsensusReport.Fits, ConsensusReport.counters, ConsensusReport.listLengths, and_assoc]

/-! ### Rankings -/

def RankingFactorValue.Fits (limits : Limits) (v : RankingFactorValue) : Prop :=
  TextFits limits.maxMetadataBytes v.detail

theorem getRankingFactorValue_exact (limits : Limits) :
    Exact (getRankingFactorValue limits) (RankingFactorValue.Fits limits)
      putRankingFactorValue := by
  refine .congr (.field (arbitrationFactor_exact _) fun factor _ =>
      .field f64_exact fun score _ =>
      .field (getString_exact _ _) fun detail _ =>
      .done fun v => ?_) fun v => ?_
  · simp [RankingFactorValue.ext_iff, and_assoc]
  · simp [RankingFactorValue.Fits]

def CandidateRanking.Fits (limits : Limits) (r : CandidateRanking) : Prop :=
  TextFits limits.maxMetadataBytes r.eliminationDetail ∧ r.factors.length ≤ 16
    ∧ (∀ v ∈ r.factors, v.Fits limits) ∧ -2 ^ 63 ≤ r.rank ∧ r.rank < 2 ^ 63

theorem getCandidateRanking_exact (limits : Limits) :
    Exact (getCandidateRanking limits) (CandidateRanking.Fits limits) putCandidateRanking := by
  refine .congr (.field getId_exact fun candidate _ =>
      .field getId_exact fun generation _ =>
      .field getId_exact fun participant _ =>
      .field getId_exact fun participantGeneration _ =>
      .field (role_exact _) fun role _ =>
      .field boolean_exact fun eligible _ =>
      .field (eliminationReason_exact _) fun elimination _ =>
      .field (getString_exact _ _) fun detail _ =>
      .field (list_exact (getRankingFactorValue_exact limits) _ _)
        fun factors _ =>
      .field i64_exact fun rank _ =>
      .field boolean_exact fun selected _ =>
      .done fun r => ?_) fun r => ?_
  · simp [CandidateRanking.ext_iff, and_assoc]
  · simp [CandidateRanking.Fits, and_assoc]

def ArbitrationReport.Fits (limits : Limits) (r : ArbitrationReport) : Prop :=
  r.factorOrder.length ≤ 16 ∧ r.ranking.length ≤ limits.maxCandidatesPerExecution.toNat
    ∧ (∀ ranking ∈ r.ranking, ranking.Fits limits) ∧ r.considered < 2 ^ 32
    ∧ r.eliminated < 2 ^ 32 ∧ NotesFit limits r.notes

theorem getArbitrationReport_exact (limits : Limits) :
    Exact (getArbitrationReport limits) (ArbitrationReport.Fits limits) putArbitrationReport := by
  refine .congr (.field getId_exact fun generation _ =>
      .field getId_exact fun epoch _ =>
      .field getId_exact fun sequence _ =>
      .field (tieBreak_exact _) fun tie _ =>
      .field (list_exact (arbitrationFactor_exact _) _ _) fun factors _ =>
      .field (list_exact (getCandidateRanking_exact limits) _ _)
        fun ranking _ =>
      .field getId_exact fun selected _ =>
      .field getId_exact fun selectedGeneration _ =>
      .field getId_exact fun selectedParticipant _ =>
      .field (role_exact _) fun selectedRole _ =>
      .field boolean_exact fun tieUnresolved _ =>
      .field boolean_exact fun noEligible _ =>
      .field counter_exact fun considered _ =>
      .field counter_exact fun eliminated _ =>
      .field (getNotes_exact _ _) fun notes _ =>
      .done fun r => ?_) fun r => ?_
  · simp [ArbitrationReport.ext_iff, and_assoc]
  · simp [ArbitrationReport.Fits, and_assoc]

/-! ## Snapshots -/

def CandidateSnapshot.counters (s : CandidateSnapshot) : List Nat :=
  [s.attempt, s.attemptsUsed, s.payloadBytes, s.evaluationCount, s.hardFailures]

def CandidateSnapshot.texts (s : CandidateSnapshot) : List String :=
  [s.domain, s.failureDetail, s.eliminationReason]

def CandidateSnapshot.Fits (limits : Limits) (s : CandidateSnapshot) : Prop :=
  (∀ n ∈ s.counters, n < 2 ^ 32) ∧ (∀ text ∈ s.texts, TextFits limits.maxMetadataBytes text)
    ∧ s.payload.length ≤ limits.maxCandidatePayloadBytes.toNat ∧ s.payloadBytes = s.payload.length

theorem getCandidateSnapshot_exact (limits : Limits) :
    Exact (getCandidateSnapshot limits) (CandidateSnapshot.Fits limits) putCandidateSnapshot := by
  have hlength : ∀ (payload : List UInt8) (bytes : Nat) (s : CandidateSnapshot),
      s.payload = payload ∧ s.payloadBytes = bytes →
      (s.payloadBytes = s.payload.length ↔ ¬ bytes ≠ payload.length) := by
    rintro payload bytes s ⟨rfl, rfl⟩
    exact not_not.symm
  refine .congr (.field getId_exact fun id _ => .field getId_exact fun generation _ =>
      .field getId_exact fun ensemble _ => .field getId_exact fun ensembleGeneration _ =>
      .field getId_exact fun execution _ => .field getId_exact fun attempt _ =>
      .field getId_exact fun participant _ => .field getId_exact fun participantGeneration _ =>
      .field (role_exact _) fun role _ => .field getId_exact fun stage _ =>
      .field (candidateState_exact _) fun state _ => .field counter_exact fun attemptNumber _ =>
      .field counter_exact fun attemptsUsed _ => .field (getString_exact _ _) fun domain _ =>
      .field (bytes_exact _) fun payload _ => .field u64_exact fun digest _ =>
      .field counter_exact fun bytes _ =>
      .guard (fun s hs => hlength payload bytes s ⟨hs.1.1.2, hs.2⟩) fun _ =>
      .field getId_exact fun sequence _ => .field getId_exact fun epoch _ =>
      .field getId_exact fun worker _ => .field getId_exact fun boot _ =>
      .field (failure_exact _) fun failure _ => .field (getString_exact _ _) fun detail _ =>
      .field counter_exact fun evaluations _ => .field counter_exact fun hard _ =>
      .field boolean_exact fun fallback _ => .field boolean_exact fun current _ =>
      .field (getString_exact _ _) fun elimination _ =>
      .done fun s => ?_) fun s => ?_
  · simp [CandidateSnapshot.ext_iff, and_assoc]
  · simp only [CandidateSnapshot.Fits, CandidateSnapshot.counters, CandidateSnapshot.texts,
      List.forall_mem_cons, List.not_mem_nil, false_implies, implies_true, true_and, and_true]
    tauto

def EvaluationSnapshot.Fits (limits : Limits) (s : EvaluationSnapshot) : Prop :=
  s.evidence.length ≤ limits.maxEvaluationPayloadBytes.toNat
    ∧ TextFits limits.maxMetadataBytes s.rationale

theorem getEvaluationSnapshot_exact (limits : Limits) :
    Exact (getEvaluationSnapshot limits) (EvaluationSnapshot.Fits limits)
      putEvaluationSnapshot := by
  refine .congr (.field getId_exact fun id _ => .field getId_exact fun generation _ =>
      .field getId_exact fun ensemble _ => .field getId_exact fun ensembleGeneration _ =>
      .field getId_exact fun execution _ => .field getId_exact fun attempt _ =>
      .field getId_exact fun evaluator _ => .field getId_exact fun evaluatorGeneration _ =>
      .field (role_exact _) fun role _ => .field getId_exact fun candidate _ =>
      .field getId_exact fun candidateGeneration _ => .field getCriterion_exact fun criterion _ =>
      .field (criterionKind_exact _) fun kind _ =>
      .field (verification_exact _) fun verification _ =>
      .field (judgment_exact _) fun judgment _ => .field boolean_exact fun scoreDefined _ =>
      .field f64_exact fun score _ => .field f64_exact fun weight _ =>
      .field (bytes_exact _) fun evidence _ => .field (getString_exact _ _) fun rationale _ =>
      .field getId_exact fun sequence _ => .field getId_exact fun epoch _ =>
      .field getId_exact fun worker _ => .field getId_exact fun boot _ =>
      .field boolean_exact fun current _ => .field boolean_exact fun superseded _ =>
      .done fun s => ?_) fun s => ?_
  · simp [EvaluationSnapshot.ext_iff, and_assoc]
  · simp [EvaluationSnapshot.Fits]

/-! ## Results -/

def ParticipantOutcome.counters (o : ParticipantOutcome) : List Nat :=
  [o.candidates, o.candidatesValid, o.candidatesFailed, o.candidatesAbstained, o.evaluations,
    o.retries]

def ParticipantOutcome.Fits (o : ParticipantOutcome) : Prop :=
  o.roles.knownBits = true ∧ ∀ n ∈ o.counters, n < 2 ^ 32

theorem getParticipantOutcome_exact :
    Exact getParticipantOutcome ParticipantOutcome.Fits putParticipantOutcome := by
  refine .congr (.field getId_exact fun id _ => .field getId_exact fun generation _ =>
      .field (roles_exact _) fun roles _ => .field boolean_exact fun required _ =>
      .field (participantStatus_exact _) fun status _ =>
      .field counter_exact fun candidates _ => .field counter_exact fun valid _ =>
      .field counter_exact fun failed _ => .field counter_exact fun abstained _ =>
      .field counter_exact fun evaluations _ => .field counter_exact fun retries _ =>
      .field boolean_exact fun fallback _ => .field boolean_exact fun authoritative _ =>
      .done fun o => ?_) fun o => ?_
  · simp [ParticipantOutcome.ext_iff, and_assoc]
  · simp [ParticipantOutcome.Fits, ParticipantOutcome.counters]

def ExplanationEntry.Fits (limits : Limits) (entry : ExplanationEntry) : Prop :=
  TextFits limits.maxLabelBytes entry.subject ∧ TextFits limits.maxMetadataBytes entry.detail

theorem getExplanationEntry_exact (limits : Limits) :
    Exact (getExplanationEntry limits) (ExplanationEntry.Fits limits) putExplanationEntry := by
  refine .congr (.field (getString_exact _ _) fun subject _ =>
      .field (getString_exact _ _) fun detail _ => .done fun entry => ?_) fun entry => ?_
  · simp [ExplanationEntry.ext_iff]
  · simp [ExplanationEntry.Fits]

/-- The bounds of the decoder on a result and everything in it. Whether a result
comes back from its encoding depends on them and on the size alone. -/
@[mk_iff] structure EnsembleResult.Fits (limits : Limits) (r : EnsembleResult) : Prop where
  payload : r.payload.length ≤ limits.maxCandidatePayloadBytes.toNat
  payloadBytes : r.payloadBytes = r.payload.length
  quorum : r.quorum.Fits limits
  consensus : r.consensus.Fits limits
  arbitration : r.arbitration.Fits limits
  participantCount : r.participants.length ≤ limits.maxParticipantsPerEnsemble.toNat
  participants : ∀ o ∈ r.participants, o.Fits
  candidateCount : r.candidates.length ≤ limits.maxRecordsPerSnapshot.toNat
  candidates : ∀ s ∈ r.candidates, s.Fits limits
  evaluationCount : r.evaluations.length ≤ limits.maxRecordsPerSnapshot.toNat
  evaluations : ∀ s ∈ r.evaluations, s.Fits limits
  explanationCount : r.explanation.length ≤ limits.maxExplanationEntries.toNat
  explanation : ∀ entry ∈ r.explanation, entry.Fits limits

theorem getResult_exact (limits : Limits) :
    Exact (getResult limits) (EnsembleResult.Fits limits) putResult := by
  have hlength : ∀ (payload : List UInt8) (bytes : Nat) (r : EnsembleResult),
      r.payload = payload ∧ r.payloadBytes = bytes →
      (r.payloadBytes = r.payload.length ↔ ¬ bytes ≠ payload.length) := by
    rintro payload bytes r ⟨rfl, rfl⟩
    exact not_not.symm
  refine .congr (.field getId_exact fun id _ =>
      .field getId_exact fun generation _ =>
      .field getId_exact fun ensemble _ =>
      .field getId_exact fun ensembleGeneration _ =>
      .field getId_exact fun execution _ =>
      .field getId_exact fun attempt _ =>
      .field getId_exact fun epoch _ =>
      .field (decision_exact _) fun decision _ =>
      .field boolean_exact fun hasSelected _ =>
      .field getId_exact fun selected _ =>
      .field getId_exact fun selectedGeneration _ =>
      .field getId_exact fun selectedParticipant _ =>
      .field getId_exact fun selectedParticipantGeneration _ =>
      .field (role_exact _) fun selectedRole _ =>
      .field (bytes_exact _) fun payload _ =>
      .field u64_exact fun digest _ =>
      .field counter_exact fun bytes _ =>
      .guard (fun r hr => hlength payload bytes r ⟨hr.1.1.2, hr.2⟩) fun _ =>
      .field (getQuorumReport_exact limits) fun quorum _ =>
      .field (getConsensusReport_exact limits) fun consensus _ =>
      .field (getArbitrationReport_exact limits) fun arbitration _ =>
      .field (list_exact getParticipantOutcome_exact _ _)
        fun participants _ =>
      .field (list_exact (getCandidateSnapshot_exact limits) _ _)
        fun candidates _ =>
      .field (list_exact (getEvaluationSnapshot_exact limits) _ _)
        fun evaluations _ =>
      .field (list_exact (getExplanationEntry_exact limits) _ _)
        fun explanation _ =>
      .field boolean_exact fun fallbackUsed _ =>
      .field u32_exact fun fallbackDepth _ =>
      .field getId_exact fun commitSequence _ =>
      .field u64_exact fun fingerprint _ =>
      .done fun r => ?_) fun r => ?_
  · simp [EnsembleResult.ext_iff, and_assoc]
  · have hbytes : r.payload.length ≤ limits.maxCandidatePayloadBytes.toNat →
        r.payloadBytes = r.payload.length → r.payloadBytes < 2 ^ 32 := by
      intro hpayload hequal
      have hmax := limits.maxCandidatePayloadBytes.toNat_lt
      omega
    simp only [EnsembleResult.fits_iff, true_and, and_true]
    tauto

theorem getResultPayload_exact (limits : Limits) :
    Exact (getResultPayload limits) (EnsembleResult.Fits limits) putResultPayload := by
  have hreserved : ∀ (reserved : UInt32) (r : EnsembleResult), True ∧ 0 = reserved →
      (True ↔ ¬ reserved ≠ 0) := by
    rintro reserved r ⟨-, rfl⟩
    decide
  refine .congr (.field u32_exact fun reserved _ =>
      .guard (hreserved reserved) fun hzero =>
      .whole (getResult_exact limits) fun _ => ⟨trivial, (not_not.mp hzero).symm⟩) fun r => ?_
  simp

/-- A result whose encoding fits is read back if and only if it is within the
bounds of the decoder. -/
theorem decodeResultPayload_eq_ok {limits : Limits} {r : EnsembleResult} :
    decodeResultPayload (flat (putResultPayload r)) limits = .ok r ↔ r.Fits limits := by
  rw [← (getResultPayload_exact limits).reads_iff]
  simp only [decodeResultPayload, requireExhausted, Checks.bind_eq_ok, require_eq_ok,
    Checks.pure_eq_ok]
  constructor
  · rintro ⟨⟨read, remaining⟩, hread, _, hempty, rfl⟩
    obtain rfl := List.isEmpty_iff.mp hempty
    exact hread
  · intro hread
    exact ⟨(r, []), hread, (), rfl, rfl⟩

end EnsembleFabric
