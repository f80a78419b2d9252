import EnsembleFabric.Message

/-!
# Every message codec is exact

The encoder and the decoder of a message go through the same fields in the
same order, width and bounds: the decoder accepts exactly the bytes the
encoder writes for a legal message. A message is legal when its roles and
codes exist and its strings and byte fields are within the bounds of its
decoder; every enumerator of another type is one that exists.

The encoder keeps its buffer within the configured size, so a message is
encoded whole if its size is. `PayloadKind.codec` lists the codecs of the
protocol, each together with what makes a message of its kind legal and the
proof that it is exact.

> message_codecs_exact : within the configured size, a legal message is read
> back from its encoding, and only its encoding is read as it.

A proof that a decoder is exact is put together from those of its fields by
the rules of `ExactReader`, in the order in which the fields are read; there
is one for each message and no proof about two fields at once.
-/

namespace EnsembleFabric

open Decoder
open Write (flat)

attribute [ext] StrongId CompatibilityProfile ParticipantRegistration ParticipantAuthority
  CandidateAuthority EvaluationAuthority CriterionRef

/-! ## Enumerators -/

/-- A cast gives the enumerator whose number was read. -/
theorem enumerator_eq_some {α : Type} {all : List α} {first last : UInt8} {number : α → UInt8}
    (hrange : ∀ a, first ≤ number a ∧ number a ≤ last)
    (hplace : ∀ a, all[(number a - first).toNat]? = some a) (hdistinct : all.Nodup) (a : α)
    (value : UInt8) : enumerator all first last value = some a ↔ number a = value ∧ True := by
  rw [enumerator, and_true]
  constructor
  · intro h
    split at h
    · cases h
    · have hplaces : (value - first).toNat = (number a - first).toNat :=
        (List.getElem?_inj (List.getElem?_eq_some_iff.mp h).1 hdistinct).mp
          (h.trans (hplace a).symm)
      have hnumber := congrArg (· + first) (UInt8.toNat_inj.mp hplaces)
      simpa only [UInt8.sub_add_cancel] using hnumber.symm
  · rintro rfl
    rw [if_neg, hplace]
    rw [Bool.or_eq_true, decide_eq_true_eq, decide_eq_true_eq, not_or, UInt8.not_lt, UInt8.not_lt]
    exact hrange a

theorem enum_exact {α β : Type} {read : Decoder β} {write : β → List Write} {cast : β → Option α}
    {number : α → β} {legal : α → Prop} (message : String)
    (hread : Exact read (fun _ => True) write)
    (hcast : ∀ a b, cast b = some a ↔ number a = b ∧ legal a) :
    Exact (Decoder.enum read cast message) legal fun a => write (number a) :=
  .congr (Exact.checked hread hcast) fun a => by rw [true_and]

theorem role_exact (message : String) :
    Exact (Decoder.enum u8 ParticipantRole.cast message) (fun _ => True)
      fun role => Encoder.u8 role.number :=
  enum_exact message u8_exact (enumerator_eq_some (fun role => by cases role <;> decide)
    (fun role => by cases role <;> rfl) (by decide))

theorem criterionKind_exact (message : String) :
    Exact (Decoder.enum u8 CriterionKind.cast message) (fun _ => True)
      fun kind => Encoder.u8 kind.number :=
  enum_exact message u8_exact (enumerator_eq_some (fun kind => by cases kind <;> decide)
    (fun kind => by cases kind <;> rfl) (by decide))

theorem verification_exact (message : String) :
    Exact (Decoder.enum u8 VerificationState.cast message) (fun _ => True)
      fun state => Encoder.u8 state.number :=
  enum_exact message u8_exact (enumerator_eq_some (fun state => by cases state <;> decide)
    (fun state => by cases state <;> rfl) (by decide))

theorem judgment_exact (message : String) :
    Exact (Decoder.enum u8 CategoricalJudgment.cast message) (fun _ => True)
      fun judgment => Encoder.u8 judgment.number :=
  enum_exact message u8_exact (enumerator_eq_some (fun judgment => by cases judgment <;> decide)
    (fun judgment => by cases judgment <;> rfl) (by decide))

theorem failureKind_exact (message : String) :
    Exact (Decoder.enum u8 ParticipantFailureKind.cast message) (fun _ => True)
      fun kind => Encoder.u8 kind.number :=
  enum_exact message u8_exact (enumerator_eq_some (fun kind => by cases kind <;> decide)
    (fun kind => by cases kind <;> rfl) (by decide))

theorem decision_exact (message : String) :
    Exact (Decoder.enum u8 EnsembleDecision.cast message) (fun _ => True)
      fun decision => Encoder.u8 decision.number :=
  enum_exact message u8_exact (enumerator_eq_some (fun decision => by cases decision <;> decide)
    (fun decision => by cases decision <;> rfl) (by decide))

theorem roles_exact (message : String) :
    Exact (Decoder.enum u32 RoleSet.cast message) (fun roles => roles.knownBits = true)
      fun roles => Encoder.u32 roles.mask := by
  refine enum_exact message u32_exact fun roles value => ?_
  rw [RoleSet.cast, RoleSet.knownBits]
  split
  · rename_i hunknown
    constructor
    · rintro ⟨⟩
    · rintro ⟨rfl, hknown⟩
      rw [beq_iff_eq] at hknown
      rw [hknown] at hunknown
      cases hunknown
  · rename_i hknown
    constructor
    · rintro ⟨⟩
      exact ⟨rfl, by simpa using hknown⟩
    · rintro ⟨rfl, -⟩
      rfl

/-- The code is not past the last one. -/
def ErrorCode.legal (code : ErrorCode) : Prop :=
  code.number ≤ EnsembleError.internalError.number

/-- Every error has a legal code. -/
theorem EnsembleError.wire_legal (code : EnsembleError) : code.wire.legal := by
  have hle : code.number ≤ EnsembleError.internalError.number := by cases code <;> decide
  exact hle

theorem code_exact (message : String) :
    Exact (Decoder.enum u16 ErrorCode.cast message) ErrorCode.legal
      fun code => Encoder.u16 code.number := by
  refine enum_exact message u16_exact fun code value => ?_
  rw [ErrorCode.cast, ErrorCode.legal]
  split
  · rename_i hlarge
    constructor
    · rintro ⟨⟩
    · rintro ⟨rfl, hlegal⟩
      exact absurd hlarge (UInt16.not_lt.mpr hlegal)
  · rename_i hsmall
    constructor
    · rintro ⟨⟩
      exact ⟨rfl, UInt16.not_lt.mp hsmall⟩
    · rintro ⟨rfl, -⟩
      rfl

/-! ## Groups of fields -/

theorem decodeProfile_exact : Exact decodeProfile (fun _ => True) encodeProfile := by
  refine .congr (.field u16_exact fun version _ => .field u32_exact fun capabilityMask _ =>
      .field u32_exact fun taskClass _ => .field u32_exact fun outputSchema _ =>
      .field u32_exact fun modelFamily _ => .field u32_exact fun backendFeatures _ =>
      .done fun m => ?_) fun m => ?_
  · simp [CompatibilityProfile.ext_iff, and_assoc]
  · simp

theorem decodeParticipantAuthority_exact :
    Exact decodeParticipantAuthority (fun _ => True) encodeParticipantAuthority := by
  refine .congr (.field u64_exact fun ensemble _ => .field u64_exact fun ensembleGeneration _ =>
      .field u64_exact fun participant _ => .field u64_exact fun participantGeneration _ =>
      .field u64_exact fun worker _ => .field u64_exact fun boot _ =>
      .field u64_exact fun epoch _ => .done fun m => ?_) fun m => ?_
  · simp [ParticipantAuthority.ext_iff, StrongId.ext_iff, and_assoc]
  · simp

theorem decodeCandidateAuthority_exact :
    Exact decodeCandidateAuthority (fun _ => True) encodeCandidateAuthority := by
  refine .congr (.field decodeParticipantAuthority_exact fun participant _ =>
      .field u64_exact fun execution _ => .field u64_exact fun attempt _ =>
      .field u64_exact fun candidate _ => .field u64_exact fun candidateGeneration _ =>
      .done fun m => ?_) fun m => ?_
  · simp [CandidateAuthority.ext_iff, StrongId.ext_iff, and_assoc]
  · simp

theorem decodeEvaluationAuthority_exact :
    Exact decodeEvaluationAuthority (fun _ => True) encodeEvaluationAuthority := by
  refine .congr (.field decodeParticipantAuthority_exact fun evaluator _ =>
      .field u64_exact fun execution _ => .field u64_exact fun attempt _ =>
      .field u64_exact fun evaluation _ => .field u64_exact fun evaluationGeneration _ =>
      .field u64_exact fun candidate _ => .field u64_exact fun candidateGeneration _ =>
      .done fun m => ?_) fun m => ?_
  · simp [EvaluationAuthority.ext_iff, StrongId.ext_iff, and_assoc]
  · simp

theorem decodeCriterion_exact : Exact decodeCriterion (fun _ => True) encodeCriterion := by
  refine .congr (.field u32_exact fun id _ => .field u32_exact fun version _ =>
      .done fun m => ?_) fun m => ?_
  · simp [CriterionRef.ext_iff]
  · simp

/-! ## Messages -/

def HelloMessage.legal (m : HelloMessage) : Prop :=
  m.label.length ≤ 4096

theorem decodeHello_exact : Exact decodeHello HelloMessage.legal encodeHello := by
  refine .congr (.field u64_exact fun worker _ => .field u64_exact fun boot _ =>
      .field u64_exact fun epoch _ => .field decodeProfile_exact fun profile _ =>
      .field (string_exact _) fun label _ => .done fun m => ?_) fun m => ?_
  · simp [HelloMessage.ext_iff, StrongId.ext_iff, and_assoc]
  · simp [HelloMessage.legal]

def WorkerReadyMessage.legal (m : WorkerReadyMessage) : Prop :=
  m.roles.knownBits = true ∧ m.label.length ≤ 4096

theorem decodeWorkerReady_exact :
    Exact decodeWorkerReady WorkerReadyMessage.legal encodeWorkerReady := by
  refine .congr (.field u64_exact fun worker _ => .field u64_exact fun boot _ =>
      .field u64_exact fun epoch _ => .field u64_exact fun participant _ =>
      .field (roles_exact _) fun roles _ => .field decodeProfile_exact fun profile _ =>
      .field (string_exact _) fun label _ => .done fun m => ?_) fun m => ?_
  · simp [WorkerReadyMessage.ext_iff, StrongId.ext_iff, and_assoc]
  · simp [WorkerReadyMessage.legal]

def CoordinatorAck.legal (m : CoordinatorAck) : Prop :=
  m.detail.length ≤ 4096

theorem decodeCoordinatorAck_exact :
    Exact decodeCoordinatorAck CoordinatorAck.legal encodeCoordinatorAck := by
  refine .congr (.field u64_exact fun epoch _ => .field u64_exact fun boot _ =>
      .field u32_exact fun status _ => .field boolean_exact fun accepted _ =>
      .field (string_exact _) fun detail _ => .done fun m => ?_) fun m => ?_
  · simp [CoordinatorAck.ext_iff, StrongId.ext_iff, and_assoc]
  · simp [CoordinatorAck.legal]

def RegistrationAck.legal (m : RegistrationAck) : Prop :=
  m.code.legal ∧ m.detail.length ≤ 4096

theorem decodeRegistrationAck_exact :
    Exact decodeRegistrationAck RegistrationAck.legal encodeRegistrationAck := by
  refine .congr (.field u64_exact fun epoch _ => .field u64_exact fun participant _ =>
      .field u64_exact fun generation _ => .field boolean_exact fun accepted _ =>
      .field (code_exact _) fun code _ => .field (string_exact _) fun detail _ =>
      .done fun m => ?_) fun m => ?_
  · simp [RegistrationAck.ext_iff, StrongId.ext_iff, and_assoc]
  · simp [RegistrationAck.legal]

def RegisterParticipantMessage.legal (m : RegisterParticipantMessage) : Prop :=
  m.registration.claimedRoles.knownBits = true

theorem decodeRegisterParticipant_exact :
    Exact decodeRegisterParticipant RegisterParticipantMessage.legal encodeRegisterParticipant := by
  refine .congr (.field u64_exact fun ensemble _ => .field u64_exact fun generation _ =>
      .field u64_exact fun participant _ => .field u64_exact fun worker _ =>
      .field u64_exact fun boot _ => .field u64_exact fun epoch _ =>
      .field (roles_exact _) fun roles _ => .field decodeProfile_exact fun profile _ =>
      .done fun m => ?_) fun m => ?_
  · -- the roles are read before the profile
    constructor
    · rintro ⟨⟨⟨⟨⟨⟨⟨⟨-, rfl⟩, rfl⟩, rfl⟩, rfl⟩, rfl⟩, rfl⟩, rfl⟩, rfl⟩
      rfl
    · rintro rfl
      simp
  · simp [RegisterParticipantMessage.legal]

theorem decodeHeartbeat_exact : Exact decodeHeartbeat (fun _ => True) encodeHeartbeat := by
  refine .congr (.field u64_exact fun worker _ => .field u64_exact fun boot _ =>
      .field u64_exact fun epoch _ => .field u64_exact fun sequence _ =>
      .done fun m => ?_) fun m => ?_
  · simp [HeartbeatMessage.ext_iff, StrongId.ext_iff, and_assoc]
  · simp

def DispatchCandidateMessage.legal (m : DispatchCandidateMessage) : Prop :=
  m.domain.length ≤ 4096 ∧ m.request.length ≤ (megabytes 1).toNat

theorem decodeDispatchCandidate_exact :
    Exact decodeDispatchCandidate DispatchCandidateMessage.legal encodeDispatchCandidate := by
  refine .congr (.field u64_exact fun ensemble _ => .field u64_exact fun ensembleGeneration _ =>
      .field u64_exact fun execution _ => .field u64_exact fun attemptGeneration _ =>
      .field u64_exact fun participant _ => .field u64_exact fun participantGeneration _ =>
      .field u64_exact fun epoch _ => .field u64_exact fun candidate _ =>
      .field u64_exact fun candidateGeneration _ => .field (role_exact _) fun role _ =>
      .field u64_exact fun stage _ => .field u32_exact fun attempt _ =>
      .field u32_exact fun budget _ => .field u64_exact fun seed _ =>
      .field (string_exact _) fun domain _ => .field (bytes_exact _) fun request _ =>
      .done fun m => ?_) fun m => ?_
  · simp [DispatchCandidateMessage.ext_iff, StrongId.ext_iff, and_assoc]
  · simp [DispatchCandidateMessage.legal]

def CandidateResultMessage.legal (m : CandidateResultMessage) : Prop :=
  m.payload.length ≤ (megabytes 64).toNat

theorem decodeCandidateResult_exact :
    Exact decodeCandidateResult CandidateResultMessage.legal encodeCandidateResult := by
  refine .congr (.field decodeCandidateAuthority_exact fun authority _ =>
      .field (bytes_exact _) fun payload _ => .field u32_exact fun units _ =>
      .done fun m => ?_) fun m => ?_
  · simp [CandidateResultMessage.ext_iff, and_assoc]
  · simp [CandidateResultMessage.legal]

def CandidateFailureMessage.legal (m : CandidateFailureMessage) : Prop :=
  m.detail.length ≤ 4096

theorem decodeCandidateFailure_exact :
    Exact decodeCandidateFailure CandidateFailureMessage.legal encodeCandidateFailure := by
  refine .congr (.field decodeCandidateAuthority_exact fun authority _ =>
      .field (failureKind_exact _) fun kind _ => .field (string_exact _) fun detail _ =>
      .done fun m => ?_) fun m => ?_
  · simp [CandidateFailureMessage.ext_iff, and_assoc]
  · simp [CandidateFailureMessage.legal]

def CandidateAbstentionMessage.legal (m : CandidateAbstentionMessage) : Prop :=
  m.rationale.length ≤ 4096

theorem decodeCandidateAbstention_exact :
    Exact decodeCandidateAbstention CandidateAbstentionMessage.legal encodeCandidateAbstention := by
  refine .congr (.field decodeCandidateAuthority_exact fun authority _ =>
      .field (string_exact _) fun rationale _ => .done fun m => ?_) fun m => ?_
  · simp [CandidateAbstentionMessage.ext_iff]
  · simp [CandidateAbstentionMessage.legal]

def EvaluationRequestMessage.legal (m : EvaluationRequestMessage) : Prop :=
  m.candidatePayload.length ≤ (megabytes 64).toNat ∧ m.domain.length ≤ 4096

theorem decodeEvaluationRequest_exact :
    Exact decodeEvaluationRequest EvaluationRequestMessage.legal encodeEvaluationRequest := by
  refine .congr (.field u64_exact fun ensemble _ => .field u64_exact fun ensembleGeneration _ =>
      .field u64_exact fun execution _ => .field u64_exact fun attempt _ =>
      .field u64_exact fun judge _ => .field u64_exact fun judgeGeneration _ =>
      .field u64_exact fun epoch _ => .field u64_exact fun evaluation _ =>
      .field u64_exact fun evaluationGeneration _ => .field (role_exact _) fun role _ =>
      .field u64_exact fun candidate _ => .field u64_exact fun candidateGeneration _ =>
      .field decodeCriterion_exact fun criterion _ => .field (criterionKind_exact _) fun kind _ =>
      .field (bytes_exact _) fun payload _ => .field (string_exact _) fun domain _ =>
      .done fun m => ?_) fun m => ?_
  · simp [EvaluationRequestMessage.ext_iff, StrongId.ext_iff, and_assoc]
  · simp [EvaluationRequestMessage.legal]

def EvaluationResultMessage.legal (m : EvaluationResultMessage) : Prop :=
  m.evidence.length ≤ (megabytes 1).toNat ∧ m.rationale.length ≤ 4096

theorem decodeEvaluationResult_exact :
    Exact decodeEvaluationResult EvaluationResultMessage.legal encodeEvaluationResult := by
  refine .congr (.field decodeEvaluationAuthority_exact fun authority _ =>
      .field decodeCriterion_exact fun criterion _ => .field (criterionKind_exact _) fun kind _ =>
      .field (verification_exact _) fun verification _ =>
      .field (judgment_exact _) fun judgment _ => .field boolean_exact fun scoreDefined _ =>
      .field f64_exact fun score _ => .field f64_exact fun weight _ =>
      .field (bytes_exact _) fun evidence _ => .field (string_exact _) fun rationale _ =>
      .done fun m => ?_) fun m => ?_
  · simp [EvaluationResultMessage.ext_iff, and_assoc]
  · simp [EvaluationResultMessage.legal]

def CancelMessage.legal (m : CancelMessage) : Prop :=
  m.reason.length ≤ 4096

theorem decodeCancel_exact : Exact decodeCancel CancelMessage.legal encodeCancel := by
  refine .congr (.field u64_exact fun ensemble _ => .field u64_exact fun ensembleGeneration _ =>
      .field u64_exact fun execution _ => .field u64_exact fun attempt _ =>
      .field u64_exact fun epoch _ => .field u64_exact fun candidate _ =>
      .field u64_exact fun candidateGeneration _ => .field u64_exact fun participant _ =>
      .field u64_exact fun participantGeneration _ => .field (string_exact _) fun reason _ =>
      .done fun m => ?_) fun m => ?_
  · simp [CancelMessage.ext_iff, StrongId.ext_iff, and_assoc]
  · simp [CancelMessage.legal]

def DefineEnsembleMessage.legal (m : DefineEnsembleMessage) : Prop :=
  m.encodedSpec.length ≤ (megabytes 4).toNat

theorem decodeDefineEnsemble_exact :
    Exact decodeDefineEnsemble DefineEnsembleMessage.legal encodeDefineEnsemble := by
  refine .congr (.field (bytes_exact _) fun spec _ => .done fun m => ?_) fun m => ?_
  · simp [DefineEnsembleMessage.ext_iff]
  · simp [DefineEnsembleMessage.legal]

def DefineEnsembleAck.legal (m : DefineEnsembleAck) : Prop :=
  m.code.legal ∧ m.detail.length ≤ 4096

theorem decodeDefineEnsembleAck_exact :
    Exact decodeDefineEnsembleAck DefineEnsembleAck.legal encodeDefineEnsembleAck := by
  refine .congr (.field u64_exact fun ensemble _ => .field u64_exact fun generation _ =>
      .field boolean_exact fun accepted _ => .field (code_exact _) fun code _ =>
      .field (string_exact _) fun detail _ => .done fun m => ?_) fun m => ?_
  · simp [DefineEnsembleAck.ext_iff, StrongId.ext_iff, and_assoc]
  · simp [DefineEnsembleAck.legal]

theorem decodeOpenExecution_exact :
    Exact decodeOpenExecution (fun _ => True) encodeOpenExecution := by
  refine .congr (.field u64_exact fun ensemble _ => .field u64_exact fun generation _ =>
      .done fun m => ?_) fun m => ?_
  · simp [OpenExecutionMessage.ext_iff, StrongId.ext_iff]
  · simp

def OpenExecutionAck.legal (m : OpenExecutionAck) : Prop :=
  m.code.legal ∧ m.detail.length ≤ 4096

theorem decodeOpenExecutionAck_exact :
    Exact decodeOpenExecutionAck OpenExecutionAck.legal encodeOpenExecutionAck := by
  refine .congr (.field u64_exact fun ensemble _ => .field u64_exact fun generation _ =>
      .field u64_exact fun execution _ => .field boolean_exact fun accepted _ =>
      .field (code_exact _) fun code _ => .field (string_exact _) fun detail _ =>
      .done fun m => ?_) fun m => ?_
  · simp [OpenExecutionAck.ext_iff, StrongId.ext_iff, and_assoc]
  · simp [OpenExecutionAck.legal]

theorem decodeFinalizeRequest_exact :
    Exact decodeFinalizeRequest (fun _ => True) encodeFinalizeRequest := by
  refine .congr (.field u64_exact fun ensemble _ => .field u64_exact fun generation _ =>
      .done fun m => ?_) fun m => ?_
  · simp [FinalizeRequestMessage.ext_iff, StrongId.ext_iff]
  · simp

def FinalizeResponseMessage.legal (m : FinalizeResponseMessage) : Prop :=
  m.code.legal ∧ m.encodedResult.length ≤ (megabytes 32).toNat ∧ m.detail.length ≤ 4096

theorem decodeFinalizeResponse_exact :
    Exact decodeFinalizeResponse FinalizeResponseMessage.legal encodeFinalizeResponse := by
  refine .congr (.field u64_exact fun ensemble _ => .field u64_exact fun generation _ =>
      .field (decision_exact _) fun decision _ => .field boolean_exact fun accepted _ =>
      .field (code_exact _) fun code _ => .field (bytes_exact _) fun result _ =>
      .field (string_exact _) fun detail _ => .done fun m => ?_) fun m => ?_
  · simp [FinalizeResponseMessage.ext_iff, StrongId.ext_iff, and_assoc]
  · simp [FinalizeResponseMessage.legal]

def CancelEnsembleMessage.legal (m : CancelEnsembleMessage) : Prop :=
  m.reason.length ≤ 4096

theorem decodeCancelEnsemble_exact :
    Exact decodeCancelEnsemble CancelEnsembleMessage.legal encodeCancelEnsemble := by
  refine .congr (.field u64_exact fun ensemble _ => .field u64_exact fun generation _ =>
      .field (string_exact _) fun reason _ => .done fun m => ?_) fun m => ?_
  · simp [CancelEnsembleMessage.ext_iff, StrongId.ext_iff, and_assoc]
  · simp [CancelEnsembleMessage.legal]

theorem decodeQueryResult_exact : Exact decodeQueryResult (fun _ => True) encodeQueryResult := by
  refine .congr (.field u64_exact fun ensemble _ => .field u64_exact fun generation _ =>
      .done fun m => ?_) fun m => ?_
  · simp [QueryResultMessage.ext_iff, StrongId.ext_iff]
  · simp

def ResultResponseMessage.legal (m : ResultResponseMessage) : Prop :=
  m.encodedResult.length ≤ (megabytes 32).toNat ∧ m.code.legal

theorem decodeResultResponse_exact :
    Exact decodeResultResponse ResultResponseMessage.legal encodeResultResponse := by
  refine .congr (.field u64_exact fun ensemble _ => .field u64_exact fun generation _ =>
      .field boolean_exact fun hasResult _ => .field (decision_exact _) fun decision _ =>
      .field (bytes_exact _) fun result _ => .field (code_exact _) fun code _ =>
      .done fun m => ?_) fun m => ?_
  · simp [ResultResponseMessage.ext_iff, StrongId.ext_iff, and_assoc]
  · simp [ResultResponseMessage.legal]

theorem decodeInspectRequest_exact :
    Exact decodeInspectRequest (fun _ => True) encodeInspectRequest := by
  refine .congr (.field u64_exact fun ensemble _ => .done fun m => ?_) fun m => ?_
  · simp [InspectRequestMessage.ext_iff, StrongId.ext_iff]
  · simp

def InspectResponseMessage.legal (m : InspectResponseMessage) : Prop :=
  m.encodedReport.length ≤ (megabytes 8).toNat ∧ m.code.legal

theorem decodeInspectResponse_exact :
    Exact decodeInspectResponse InspectResponseMessage.legal encodeInspectResponse := by
  refine .congr (.field u64_exact fun ensemble _ => .field u64_exact fun generation _ =>
      .field (bytes_exact _) fun report _ => .field (code_exact _) fun code _ =>
      .done fun m => ?_) fun m => ?_
  · simp [InspectResponseMessage.ext_iff, StrongId.ext_iff, and_assoc]
  · simp [InspectResponseMessage.legal]

def StatusResponseMessage.legal (m : StatusResponseMessage) : Prop :=
  m.code.legal ∧ m.detail.length ≤ 4096

theorem decodeStatusResponse_exact :
    Exact decodeStatusResponse StatusResponseMessage.legal encodeStatusResponse := by
  refine .congr (.field (code_exact _) fun code _ => .field (string_exact _) fun detail _ =>
      .done fun m => ?_) fun m => ?_
  · simp [StatusResponseMessage.ext_iff]
  · simp [StatusResponseMessage.legal]

def ErrorResponseMessage.legal (m : ErrorResponseMessage) : Prop :=
  m.code.legal ∧ m.detail.length ≤ 4096

theorem decodeErrorResponse_exact :
    Exact decodeErrorResponse ErrorResponseMessage.legal encodeErrorResponse := by
  refine .congr (.field (code_exact _) fun code _ => .field u64_exact fun correlation _ =>
      .field (string_exact _) fun detail _ => .done fun m => ?_) fun m => ?_
  · simp [ErrorResponseMessage.ext_iff, StrongId.ext_iff, and_assoc]
  · simp [ErrorResponseMessage.legal]

/-! ## The protocol -/

/-- A codec whose decoder accepts exactly what its encoder writes. Exactness is a
field, so a codec without a proof cannot be listed. -/
structure MessageCodec where
  Message : Type
  encode : Message → List Write
  decode : Decoder Message
  legal : Message → Prop
  law : Exact decode legal encode

def MessageCodec.of {Message : Type} {encode : Message → List Write} {decode : Decoder Message}
    {legal : Message → Prop} (law : Exact decode legal encode) : MessageCodec :=
  ⟨Message, encode, decode, legal, law⟩

/-- The messages of the protocol. -/
inductive PayloadKind where
  | hello
  | workerReady
  | coordinatorAck
  | registrationAck
  | registerParticipant
  | heartbeat
  | dispatchCandidate
  | candidateResult
  | candidateFailure
  | candidateAbstention
  | evaluationRequest
  | evaluationResult
  | cancel
  | defineEnsemble
  | defineEnsembleAck
  | openExecution
  | openExecutionAck
  | finalizeRequest
  | finalizeResponse
  | cancelEnsemble
  | queryResult
  | resultResponse
  | inspectRequest
  | inspectResponse
  | statusResponse
  | errorResponse
deriving DecidableEq

def PayloadKind.codec : PayloadKind → MessageCodec
  | .hello => .of decodeHello_exact
  | .workerReady => .of decodeWorkerReady_exact
  | .coordinatorAck => .of decodeCoordinatorAck_exact
  | .registrationAck => .of decodeRegistrationAck_exact
  | .registerParticipant => .of decodeRegisterParticipant_exact
  | .heartbeat => .of decodeHeartbeat_exact
  | .dispatchCandidate => .of decodeDispatchCandidate_exact
  | .candidateResult => .of decodeCandidateResult_exact
  | .candidateFailure => .of decodeCandidateFailure_exact
  | .candidateAbstention => .of decodeCandidateAbstention_exact
  | .evaluationRequest => .of decodeEvaluationRequest_exact
  | .evaluationResult => .of decodeEvaluationResult_exact
  | .cancel => .of decodeCancel_exact
  | .defineEnsemble => .of decodeDefineEnsemble_exact
  | .defineEnsembleAck => .of decodeDefineEnsembleAck_exact
  | .openExecution => .of decodeOpenExecution_exact
  | .openExecutionAck => .of decodeOpenExecutionAck_exact
  | .finalizeRequest => .of decodeFinalizeRequest_exact
  | .finalizeResponse => .of decodeFinalizeResponse_exact
  | .cancelEnsemble => .of decodeCancelEnsemble_exact
  | .queryResult => .of decodeQueryResult_exact
  | .resultResponse => .of decodeResultResponse_exact
  | .inspectRequest => .of decodeInspectRequest_exact
  | .inspectResponse => .of decodeInspectResponse_exact
  | .statusResponse => .of decodeStatusResponse_exact
  | .errorResponse => .of decodeErrorResponse_exact

/-- Within the configured size, a legal message is read back from its encoding,
and only its encoding is read as it. -/
theorem message_codecs_exact (limits : Limits) (kind : PayloadKind) :
    (∀ m : kind.codec.Message, kind.codec.legal m →
        (flat (kind.codec.encode m)).length ≤ limits.maxPersistenceBytes.toNat →
        kind.codec.decode.run (Encoder.buffer limits (kind.codec.encode m)) = .ok (m, []))
      ∧ ∀ (bytes : List UInt8) (m : kind.codec.Message),
        bytes.length ≤ limits.maxPersistenceBytes.toNat →
        kind.codec.decode.run bytes = .ok (m, []) →
        kind.codec.legal m ∧ Encoder.buffer limits (kind.codec.encode m) = bytes := by
  constructor
  · intro m hlegal hroom
    rw [Encoder.buffer_eq hroom]
    exact kind.codec.law.reads hlegal
  · intro bytes m hroom hread
    obtain ⟨hlegal, rfl⟩ := kind.codec.law.canonical hread
    exact ⟨hlegal, Encoder.buffer_eq hroom⟩

namespace Sample

/-- A candidate's result with a payload of two bytes. -/
def candidateResult : CandidateResultMessage where
  authority :=
    { participant :=
        { ensemble := ⟨1⟩, ensembleGeneration := ⟨1⟩, participant := ⟨2⟩
          participantGeneration := ⟨1⟩, worker := ⟨3⟩, workerBoot := ⟨4⟩, coordinatorEpoch := ⟨5⟩ }
      execution := ⟨6⟩, attemptGeneration := ⟨1⟩, candidate := ⟨7⟩, candidateGeneration := ⟨2⟩ }
  payload := [0x41, 0x42]
  producedUnits := 12

end Sample

/-- The result is read back. -/
theorem candidateResult_read_back :
    decodeCandidateResult.run (Encoder.buffer {} (encodeCandidateResult Sample.candidateResult))
      = .ok (Sample.candidateResult, []) :=
  (message_codecs_exact {} .candidateResult).1 Sample.candidateResult
    (show (2 : Nat) ≤ 67108864 by decide)
    (show (flat (encodeCandidateResult Sample.candidateResult)).length ≤ 33554432 by decide)

end EnsembleFabric
