import EnsembleFabric.SpecCodec
import EnsembleFabric.System

/-!
# What crosses the wire as a specification

The codec of a specification is exact: the decoder accepts exactly what the
encoder writes for a specification within its bounds
(`getSpec_exact`). So an accepted encoding is the one the encoder writes.

> decoded_spec_canonical : an accepted encoding is the one that is written for
> what it is read as, so distinct accepted encodings are read as distinct
> specifications.

Not every bound of the decoder is one of the validator. A specification
that the validator accepts crosses the wire if and only if it keeps the
remaining ones (`Transportable`): at most sixteen judging criteria, for one,
which the validator does not count. `validateSpec_fits` goes through the
other bounds and finds each of them among the checks of the validator; where
it is not a check, the bound follows from one, as for lists of factors,
which may name each factor once.
-/

namespace EnsembleFabric

open Decoder (u8_exact u16_exact u32_exact u64_exact boolean_exact f64_exact string_exact list_exact
  labelled_exact)
open Write (flat)

attribute [ext] CompatibilityRequirement ParticipantSpec StageSpec RoleQuota QuorumPolicy
  AggregationPolicy ArbitrationPolicy FallbackPolicy CompletionPolicy RetryPolicy
  CancellationPolicy EvidenceRequirement EnsembleSpec Double

/-! ## Sub-codecs -/

/-- A text of bytes within a bound. -/
def TextFits (maxBytes : UInt32) (text : String) : Prop :=
  text.length ≤ maxBytes.toNat ∧ IsByteText text

theorem getEnum_exact {α : Type} {all : List α} {first last : UInt8} {number : α → UInt8}
    (hrange : ∀ a, first ≤ number a ∧ number a ≤ last)
    (hplace : ∀ a, all[(number a - first).toNat]? = some a) (hdistinct : all.Nodup)
    (what : String) :
    Exact (getEnum (enumerator all first last) what) (fun _ => True)
      fun a => Encoder.u8 (number a) :=
  enum_exact _ u8_exact (enumerator_eq_some hrange hplace hdistinct)

theorem getString_exact (maxBytes : UInt32) (what : String) :
    Exact (getString maxBytes what) (TextFits maxBytes) putText := by
  refine .congr (.convert textBytes IsByteText (labelled_exact (string_exact maxBytes) what)
    fun value _ => .known fun text => ?_) fun text => ?_
  · constructor
    · rintro ⟨rfl, htext⟩
      exact (bytesText_textBytes htext).symm
    · rintro rfl
      exact ⟨textBytes_bytesText value, bytesText_isByteText value⟩
  · rw [textBytes_length, TextFits]

theorem getId_exact {domain : IdDomain} :
    Exact (getId : Decoder (StrongId domain)) (fun _ => True) putId := by
  refine .congr
    (.convert StrongId.value (fun _ => True) u64_exact fun value _ => .known fun id => ?_)
    fun _ => and_self_iff
  rw [and_true, StrongId.ext_iff]

theorem getCriterion_exact : Exact getCriterion (fun _ => True) putCriterion :=
  decodeCriterion_exact

theorem getCompatibilityRequirement_exact :
    Exact getCompatibilityRequirement (fun _ => True) putCompatibilityRequirement := by
  refine .congr (.field u16_exact fun version _ =>
      .field (labelled_exact u32_exact _) fun capabilities _ =>
      .field (labelled_exact u32_exact _) fun taskClass _ =>
      .field (labelled_exact u32_exact _) fun outputSchema _ =>
      .field (labelled_exact u32_exact _) fun modelFamily _ =>
      .field (labelled_exact u32_exact _) fun features _ =>
      .field boolean_exact fun diversity _ => .done fun r => ?_) fun r => ?_
  · simp [CompatibilityRequirement.ext_iff, and_assoc]
  · simp

theorem getOverride_exact : Exact getOverride (fun _ => True) putOverride := by
  intro bytes a rest
  rw [getOverride, Reader.run_bind_eq_ok]
  constructor
  · rintro ⟨hasOverride, middle, hflag, hread⟩
    obtain ⟨-, -, rfl⟩ := (boolean_exact _ _ _).mp hflag
    cases hasOverride with
    | false =>
      cases hread
      exact ⟨trivial, trivial, rfl⟩
    | true =>
      obtain ⟨value, last, hvalue, hdone⟩ := Reader.run_bind_eq_ok.mp hread
      obtain ⟨-, -, rfl⟩ := (boolean_exact _ _ _).mp hvalue
      cases hdone
      exact ⟨trivial, trivial, by rw [putOverride, Write.flat_append, List.append_assoc]⟩
  · rintro ⟨-, -, rfl⟩
    cases a with
    | none => exact ⟨false, rest, (boolean_exact _ _ _).mpr ⟨trivial, trivial, rfl⟩, rfl⟩
    | some value =>
      refine ⟨true, flat (Encoder.boolean value) ++ rest, (boolean_exact _ _ _).mpr
        ⟨trivial, trivial, by rw [putOverride, Write.flat_append, List.append_assoc]⟩, ?_⟩
      exact Reader.run_bind_eq_ok.mpr
        ⟨value, rest, (boolean_exact _ _ _).mpr ⟨trivial, trivial, rfl⟩, rfl⟩

def ParticipantSpec.Fits (limits : Limits) (p : ParticipantSpec) : Prop :=
  TextFits limits.maxLabelBytes p.label ∧ p.roles.knownBits = true
    ∧ TextFits limits.maxMetadataBytes p.domain

theorem getParticipantSpec_exact (limits : Limits) :
    Exact (getParticipantSpec limits) (ParticipantSpec.Fits limits) putParticipantSpec := by
  refine .congr (.field getId_exact fun id _ => .field (getString_exact _ _) fun label _ =>
      .field (roles_exact _) fun roles _ => .field boolean_exact fun required _ =>
      .field (getString_exact _ _) fun domain _ => .field u32_exact fun priority _ =>
      .field u32_exact fun budget _ => .field getOverride_exact fun selectableOverride _ =>
      .field getCompatibilityRequirement_exact fun compatibility _ =>
      .done fun p => ?_) fun p => ?_
  · simp [ParticipantSpec.ext_iff, and_assoc]
  · simp [ParticipantSpec.Fits]

def StageSpec.Fits (limits : Limits) (stage : StageSpec) : Prop :=
  TextFits limits.maxLabelBytes stage.label
    ∧ stage.participants.length ≤ limits.maxParallelBranches.toNat
    ∧ stage.requiredDomains.length ≤ limits.maxParticipantsPerEnsemble.toNat
    ∧ ∀ domain ∈ stage.requiredDomains, TextFits limits.maxMetadataBytes domain

theorem topologyMode_exact (what : String) :
    Exact (getEnum TopologyMode.cast what) (fun _ => True)
      fun mode => Encoder.u8 mode.number :=
  getEnum_exact (fun mode => by cases mode <;> decide) (fun mode => by cases mode <;> rfl)
    (by decide) what

theorem getStageSpec_exact (limits : Limits) :
    Exact (getStageSpec limits) (StageSpec.Fits limits) putStageSpec := by
  refine .congr (.field getId_exact fun id _ => .field (getString_exact _ _) fun label _ =>
      .field (topologyMode_exact _) fun mode _ =>
      .field (list_exact getId_exact _ _) fun participants _ =>
      .field (list_exact (getString_exact _ _) _ _) fun domains _ =>
      .field boolean_exact fun fallback _ => .done fun stage => ?_) fun stage => ?_
  · simp [StageSpec.ext_iff, and_assoc]
  · simp [StageSpec.Fits]

theorem getRoleQuota_exact : Exact getRoleQuota (fun _ => True) putRoleQuota := by
  refine .congr (.field (role_exact _) fun role _ => .field u32_exact fun count _ =>
      .done fun quota => ?_) fun quota => ?_
  · simp [RoleQuota.ext_iff]
  · simp

theorem voteBasis_exact (what : String) :
    Exact (getEnum VoteBasis.cast what) (fun _ => True) fun basis => Encoder.u8 basis.number :=
  getEnum_exact (fun basis => by cases basis <;> decide) (fun basis => by cases basis <;> rfl)
    (by decide) what

theorem getQuorumPolicy_exact (limits : Limits) :
    Exact (getQuorumPolicy limits)
      (fun policy => policy.roleQuota.length ≤ limits.maxRoleQuotaEntries.toNat)
      putQuorumPolicy := by
  refine .congr (.field u32_exact fun minimum _ =>
      .field (list_exact getRoleQuota_exact _ _) fun quotas _ =>
      .field u32_exact fun evaluations _ => .field u32_exact fun candidates _ =>
      .field u32_exact fun threshold _ => .field (voteBasis_exact _) fun basis _ =>
      .field (labelled_exact boolean_exact _) fun countAbstentions _ =>
      .field (labelled_exact boolean_exact _) fun countOptional _ =>
      .field (labelled_exact boolean_exact _) fun countFailed _ =>
      .field (labelled_exact boolean_exact _) fun countUnavailable _ =>
      .field u32_exact fun failures _ => .field u32_exact fun abstentions _ =>
      .done fun policy => ?_) fun policy => ?_
  · simp [QuorumPolicy.ext_iff, and_assoc]
  · simp

def EvidenceRequirement.Fits (limits : Limits) (evidence : EvidenceRequirement) : Prop :=
  evidence.minCandidatePayloadBytes ≤ limits.maxCandidatePayloadBytes
    ∧ evidence.mandatoryCriteria.length ≤ (limits.maxRoleQuotaEntries * 4).toNat

theorem getEvidenceRequirement_exact (limits : Limits) :
    Exact (getEvidenceRequirement limits) (EvidenceRequirement.Fits limits)
      putEvidenceRequirement := by
  have hsmall : ∀ (payload : UInt32) (e : EvidenceRequirement),
      True ∧ e.minCandidatePayloadBytes = payload →
      (e.minCandidatePayloadBytes ≤ limits.maxCandidatePayloadBytes
        ↔ ¬ limits.maxCandidatePayloadBytes < payload) := by
    rintro payload e ⟨-, rfl⟩
    exact UInt32.not_lt.symm
  refine .congr (.field u32_exact fun payload _ => .guard (hsmall payload) fun _ =>
      .field u32_exact fun evaluations _ => .field boolean_exact fun rationale _ =>
      .field (list_exact getCriterion_exact _ _) fun criteria _ =>
      .field boolean_exact fun unknown _ => .field boolean_exact fun abstention _ =>
      .done fun e => ?_) fun e => ?_
  · simp [EvidenceRequirement.ext_iff, and_assoc]
  · simp [EvidenceRequirement.Fits]

/-! ### Policies written in place -/

theorem aggregationKind_exact (what : String) :
    Exact (getEnum AggregationKind.cast what) (fun _ => True)
      fun kind => Encoder.u8 kind.number :=
  getEnum_exact (fun kind => by cases kind <;> decide) (fun kind => by cases kind <;> rfl)
    (by decide) what

theorem getAggregationPolicy_exact :
    Exact getAggregationPolicy (fun _ => True) putAggregationPolicy := by
  refine .congr (.field (aggregationKind_exact _) fun kind _ =>
      .field boolean_exact fun useWeights _ => .field boolean_exact fun requirePass _ =>
      .field boolean_exact fun requireJudge _ => .field f64_exact fun minScore _ =>
      .field f64_exact fun minRatio _ => .done fun a => ?_) fun a => ?_
  · simp [AggregationPolicy.ext_iff, and_assoc]
  · simp

theorem arbitrationFactor_exact (what : String) :
    Exact (getEnum ArbitrationFactor.cast what) (fun _ => True)
      fun factor => Encoder.u8 factor.number :=
  getEnum_exact (fun factor => by cases factor <;> decide) (fun factor => by cases factor <;> rfl)
    (by decide) what

theorem tieBreak_exact (what : String) :
    Exact (getEnum TieBreakPolicy.cast what) (fun _ => True) fun tie => Encoder.u8 tie.number :=
  getEnum_exact (fun tie => by cases tie <;> decide) (fun tie => by cases tie <;> rfl)
    (by decide) what

theorem getArbitrationPolicy_exact :
    Exact getArbitrationPolicy (fun arbitration => arbitration.factors.length ≤ 16)
      putArbitrationPolicy := by
  refine .congr (.field (list_exact (arbitrationFactor_exact _) _ _) fun factors _ =>
      .field (tieBreak_exact _) fun tie _ => .field boolean_exact fun unique _ =>
      .field u32_exact fun selected _ => .done fun a => ?_) fun a => ?_
  · simp [ArbitrationPolicy.ext_iff, and_assoc]
  · simp

theorem fallbackTrigger_exact (what : String) :
    Exact (getEnum FallbackTrigger.cast what) (fun _ => True)
      fun trigger => Encoder.u8 trigger.number :=
  getEnum_exact (fun trigger => by cases trigger <;> decide)
    (fun trigger => by cases trigger <;> rfl) (by decide) what

def FallbackPolicy.Fits (limits : Limits) (fallback : FallbackPolicy) : Prop :=
  fallback.triggers.length ≤ 8
    ∧ fallback.fallbackParticipants.length ≤ limits.maxParticipantsPerEnsemble.toNat

theorem getFallbackPolicy_exact (limits : Limits) :
    Exact (getFallbackPolicy limits) (FallbackPolicy.Fits limits) putFallbackPolicy := by
  refine .congr (.field boolean_exact fun enabled _ =>
      .field (list_exact (fallbackTrigger_exact _) _ _) fun triggers _ =>
      .field (list_exact getId_exact _ _) fun fallbackParticipants _ =>
      .field boolean_exact fun eager _ => .field u32_exact fun depth _ =>
      .done fun f => ?_) fun f => ?_
  · simp [FallbackPolicy.ext_iff, and_assoc]
  · simp [FallbackPolicy.Fits]

theorem getCompletionPolicy_exact :
    Exact getCompletionPolicy (fun _ => True) putCompletionPolicy := by
  refine .congr (.field boolean_exact fun requireConsensus _ =>
      .field boolean_exact fun requireAll _ => .field boolean_exact fun allowPartial _ =>
      .done fun c => ?_) fun c => ?_
  · simp [CompletionPolicy.ext_iff, and_assoc]
  · simp

theorem getRetryPolicy_exact : Exact getRetryPolicy (fun _ => True) putRetryPolicy := by
  refine .congr (.field u32_exact fun attempts _ => .field boolean_exact fun onUnavailable _ =>
      .field boolean_exact fun onTransportError _ => .field boolean_exact fun onMalformed _ =>
      .field boolean_exact fun onFailed _ => .field boolean_exact fun replace _ =>
      .field boolean_exact fun rerun _ => .done fun r => ?_) fun r => ?_
  · simp [RetryPolicy.ext_iff, and_assoc]
  · simp

theorem getCancellationPolicy_exact :
    Exact getCancellationPolicy (fun _ => True) putCancellationPolicy := by
  refine .congr (.field boolean_exact fun onRequiredFailure _ =>
      .field boolean_exact fun onQuorumImpossible _ => .field boolean_exact fun preserve _ =>
      .done fun c => ?_) fun c => ?_
  · simp [CancellationPolicy.ext_iff, and_assoc]
  · simp

/-! ## Specifications -/

/-- The bounds of the decoder, part by part. The validator checks most of them, and
`Transportable` lists the others. -/
@[mk_iff] structure EnsembleSpec.Fits (limits : Limits) (spec : EnsembleSpec) : Prop where
  label : TextFits limits.maxLabelBytes spec.label
  taskClass : TextFits limits.maxMetadataBytes spec.taskClass
  participantCount : spec.participants.length ≤ limits.maxParticipantsPerEnsemble.toNat
  participants : ∀ p ∈ spec.participants, p.Fits limits
  stageCount : spec.stages.length ≤ limits.maxStagesPerEnsemble.toNat
  stages : ∀ stage ∈ spec.stages, stage.Fits limits
  quotas : spec.quorum.roleQuota.length ≤ limits.maxRoleQuotaEntries.toNat
  factors : spec.arbitration.factors.length ≤ 16
  fallback : spec.fallback.Fits limits
  evidence : spec.evidence.Fits limits
  judging : spec.judgingCriteria.length ≤ 16

theorem getSpec_exact (limits : Limits) :
    Exact (getSpec limits) (EnsembleSpec.Fits limits) putSpec := by
  have hreserved : ∀ (reserved : UInt32) (spec : EnsembleSpec), True ∧ 0 = reserved →
      (True ↔ ¬ reserved ≠ 0) := by
    rintro reserved spec ⟨-, rfl⟩
    decide
  refine .congr (.field u32_exact fun reserved _ => .guard (hreserved reserved) fun _ =>
      .field getId_exact fun id _ => .field getId_exact fun generation _ =>
      .field (getString_exact _ _) fun label _ => .field (getString_exact _ _) fun taskClass _ =>
      .field u32_exact fun taskClassId _ => .field u64_exact fun fingerprint _ =>
      .field (list_exact (getParticipantSpec_exact limits) _ _) fun participants _ =>
      .field (list_exact (getStageSpec_exact limits) _ _) fun stages _ =>
      .field (getQuorumPolicy_exact limits) fun quorum _ =>
      .field getAggregationPolicy_exact fun aggregation _ =>
      .field getArbitrationPolicy_exact fun arbitration _ =>
      .field (getFallbackPolicy_exact limits) fun fallback _ =>
      .field getCompletionPolicy_exact fun completion _ =>
      .field getRetryPolicy_exact fun retry _ =>
      .field getCancellationPolicy_exact fun cancellation _ =>
      .field (getEvidenceRequirement_exact limits) fun evidence _ =>
      .field (list_exact getCriterion_exact _ _) fun judging _ =>
      .field getCompatibilityRequirement_exact fun requirements _ =>
      .field u32_exact fun budget _ => .field u64_exact fun seed _ =>
      .done fun spec => ?_) fun spec => ?_
  · -- the fingerprint is read before the participants
    constructor
    · rintro ⟨⟨⟨⟨⟨⟨⟨⟨⟨⟨⟨⟨⟨⟨⟨⟨⟨⟨⟨⟨⟨-, -⟩, rfl⟩, rfl⟩, rfl⟩, rfl⟩, rfl⟩, rfl⟩, rfl⟩, rfl⟩, rfl⟩, rfl⟩,
        rfl⟩, rfl⟩, rfl⟩, rfl⟩, rfl⟩, rfl⟩, rfl⟩, rfl⟩, rfl⟩, rfl⟩
      rfl
    · rintro rfl
      simp_all
  · simp [EnsembleSpec.fits_iff, and_assoc]

theorem decodeSpec_eq_ok {data : List UInt8} {limits : Limits} {spec : EnsembleSpec} :
    decodeSpec data limits = .ok spec
      ↔ (getSpec limits).run data = .ok (spec, []) ∧ validateSpec spec limits = .ok () := by
  simp only [decodeSpec, requireExhausted, Checks.bind_eq_ok, require_eq_ok, Checks.pure_eq_ok]
  constructor
  · rintro ⟨⟨read, remaining⟩, hread, _, hempty, _, hvalid, rfl⟩
    obtain rfl := List.isEmpty_iff.mp hempty
    exact ⟨hread, hvalid⟩
  · rintro ⟨hread, hvalid⟩
    exact ⟨(spec, []), hread, (), rfl, (), hvalid, rfl⟩

/-! ## Canonical encodings -/

/-- An accepted encoding is the one that is written for what it is read as,
so distinct accepted encodings are read as distinct specifications. -/
theorem decoded_spec_canonical {limits : Limits} {data : List UInt8} {spec : EnsembleSpec}
    (hsize : data.length ≤ limits.maxPersistenceBytes.toNat)
    (hdecoded : decodeSpec data limits = .ok spec) :
    encodeSpec spec limits = data
      ∧ ∀ other otherSpec, other.length ≤ limits.maxPersistenceBytes.toNat →
          decodeSpec other limits = .ok otherSpec → other ≠ data → otherSpec ≠ spec := by
  have hencoded : ∀ bytes s, bytes.length ≤ limits.maxPersistenceBytes.toNat →
      decodeSpec bytes limits = .ok s → encodeSpec s limits = bytes := by
    intro bytes s hlength hread
    obtain ⟨-, rfl⟩ := (getSpec_exact limits).canonical (decodeSpec_eq_ok.mp hread).1
    exact Encoder.buffer_eq hlength
  refine ⟨hencoded data spec hsize hdecoded, fun other otherSpec hother hread hne heq => ?_⟩
  subst heq
  exact hne ((hencoded other otherSpec hother hread).symm.trans
    (hencoded data otherSpec hsize hdecoded))

namespace Sample

/-- One candidate, judged by so many criteria. -/
def criteriaCountSpec (count : Nat) : EnsembleSpec where
  id := ⟨1⟩
  label := "criteria"
  participants := [participant 1 candidateRole]
  judgingCriteria := (List.range count).map fun index => ⟨UInt32.ofNat index + 1, 1⟩

end Sample

/-- A specification is accepted in the encoding that is written for it. -/
theorem encoded_spec_canonical :
    encodeSpec (Sample.criteriaCountSpec 2) {} = flat (putSpec (Sample.criteriaCountSpec 2))
      ∧ ∀ other otherSpec, other.length ≤ ({} : Limits).maxPersistenceBytes.toNat →
          decodeSpec other {} = .ok otherSpec →
          other ≠ flat (putSpec (Sample.criteriaCountSpec 2)) →
          otherSpec ≠ Sample.criteriaCountSpec 2 :=
  decoded_spec_canonical (by decide +kernel) (by decide +kernel)

/-! ## What the validator leaves to the decoder -/

/-- The bounds of the decoder that the validator does not check. -/
structure EnsembleSpec.Transportable (limits : Limits) (spec : EnsembleSpec) : Prop where
  roles : ∀ p ∈ spec.participants, p.roles.knownBits = true
  stageLabels : ∀ stage ∈ spec.stages, stage.label.length ≤ limits.maxLabelBytes.toNat
  domains : ∀ stage ∈ spec.stages,
    stage.requiredDomains.length ≤ limits.maxParticipantsPerEnsemble.toNat
  fallbackParticipants :
    spec.fallback.fallbackParticipants.length ≤ limits.maxParticipantsPerEnsemble.toNat
  payload : spec.evidence.minCandidatePayloadBytes ≤ limits.maxCandidatePayloadBytes
  mandatory : spec.evidence.mandatoryCriteria.length ≤ (limits.maxRoleQuotaEntries * 4).toNat
  judging : spec.judgingCriteria.length ≤ 16

theorem EnsembleSpec.Fits.transportable {limits : Limits} {spec : EnsembleSpec}
    (h : spec.Fits limits) : spec.Transportable limits where
  roles p hp := (h.participants p hp).2.1
  stageLabels stage hstage := (h.stages stage hstage).1.1
  domains stage hstage := (h.stages stage hstage).2.2.1
  fallbackParticipants := h.fallback.2
  payload := h.evidence.1
  mandatory := h.evidence.2
  judging := h.judging

theorem checkBounded_eq_ok {text what : String} {maxBytes : UInt32}
    (h : checkBounded text maxBytes what = .ok ()) : TextFits maxBytes text := by
  rw [checkBounded, require_eq_ok] at h
  exact ⟨isBoundedAscii_length h, isBoundedAscii_isByteText h⟩

theorem validateParticipant_texts {limits : Limits} {earlier : List ParticipantSpec}
    {p : ParticipantSpec} (h : validateParticipant limits earlier p = .ok ()) :
    TextFits limits.maxLabelBytes p.label ∧ TextFits limits.maxMetadataBytes p.domain := by
  simp only [validateParticipant, Checks.bind_eq_ok, require_eq_ok] at h
  obtain ⟨_, -, _, -, _, -, _, hlabel, _, hdomain, -⟩ := h
  exact ⟨checkBounded_eq_ok hlabel, checkBounded_eq_ok hdomain⟩

theorem validateStage_bounds {limits : Limits} {spec : EnsembleSpec} {earlier : List StageSpec}
    {stage : StageSpec} (h : validateStage limits spec earlier stage = .ok ()) :
    stage.participants.length ≤ limits.maxParallelBranches.toNat
      ∧ ∀ domain ∈ stage.requiredDomains, TextFits limits.maxMetadataBytes domain := by
  simp only [validateStage, Checks.bind_eq_ok, require_eq_ok, Checks.forM_eq_ok,
    decide_eq_true_eq] at h
  obtain ⟨_, -, _, -, _, -, _, hmembers, _, -, hdomains⟩ := h
  refine ⟨hmembers, fun domain hdomain => ?_⟩
  have hcheck := hdomains domain hdomain
  simp only [validateStageDomain, Checks.bind_eq_ok] at hcheck
  obtain ⟨_, hbounded, -⟩ := hcheck
  exact checkBounded_eq_ok hbounded

/-- A factor is listed at most once, and there are thirteen. -/
theorem factors_length {factors : List ArbitrationFactor} (h : factors.Nodup) :
    factors.length ≤ 13 := by
  have hall : factors ⊆ [.judgeAcceptanceRatio, .verifierState, .voteCount, .weightedVote,
      .aggregateScore, .minScore, .confidence, .participantPriority, .specialistRelevance,
      .executionCost, .latency, .provenanceQuality, .fallbackStatus] := by
    intro factor _
    cases factor <;> decide
  exact h.length_le_of_subset hall

/-- A trigger is listed at most once, and there are eight. -/
theorem triggers_length {triggers : List FallbackTrigger} (h : triggers.Nodup) :
    triggers.length ≤ 8 := by
  have hall : triggers ⊆ [.participantUnavailable, .retryExhausted, .quorumImpossible,
      .requiredRoleUnavailable, .allPrimaryInvalid, .judgeDisagreement, .insufficientEvidence,
      .requiredParticipantFailed] := by
    intro trigger _
    cases trigger <;> decide
  exact h.length_le_of_subset hall

/-- Every other bound of the decoder is one of the validator. -/
theorem validateSpec_fits {limits : Limits} {spec : EnsembleSpec}
    (hvalid : validateSpec spec limits = .ok ())
    (htext : ∀ stage ∈ spec.stages, IsByteText stage.label) (h : spec.Transportable limits) :
    spec.Fits limits := by
  simp only [validateSpec, Checks.bind_eq_ok, require_eq_ok, decide_eq_true_eq] at hvalid
  obtain ⟨_, -, _, -, _, hlabel, _, htask, _, -, _, hcount, _, hstageCount, _, hquotas, _, -, _, -,
    _, hparticipants, _, -, _, hstages, _, -, _, -, _, -, _, hfactors, _, htriggers, -⟩ := hvalid
  rw [forEachAfter_eq_ok] at hparticipants hstages
  refine ⟨checkBounded_eq_ok hlabel, checkBounded_eq_ok htask, hcount, ?_, hstageCount, ?_, hquotas,
    (factors_length hfactors).trans (by decide),
    ⟨triggers_length htriggers, h.fallbackParticipants⟩,
    ⟨h.payload, h.mandatory⟩, h.judging⟩
  · intro p hp
    obtain ⟨i, hi⟩ := List.mem_iff_getElem?.mp hp
    obtain ⟨hlabel, hdomain⟩ := validateParticipant_texts (hparticipants i p hi)
    exact ⟨hlabel, h.roles p hp, hdomain⟩
  · intro stage hstage
    obtain ⟨i, hi⟩ := List.mem_iff_getElem?.mp hstage
    obtain ⟨hmembers, hdomains⟩ := validateStage_bounds (hstages i stage hi)
    exact ⟨⟨h.stageLabels stage hstage, htext stage hstage⟩, hmembers, h.domains stage hstage,
      hdomains⟩

/-- A valid specification whose encoding fits is read back if and only if it
keeps the bounds that the validator leaves to the decoder. -/
theorem valid_spec_crosses {limits : Limits} {spec : EnsembleSpec}
    (hvalid : validateSpec spec limits = .ok ())
    (hsize : (flat (putSpec spec)).length ≤ limits.maxPersistenceBytes.toNat)
    (htext : ∀ stage ∈ spec.stages, IsByteText stage.label) :
    decodeSpec (encodeSpec spec limits) limits = .ok spec ↔ spec.Transportable limits := by
  rw [decodeSpec_eq_ok, encodeSpec, Encoder.buffer_eq hsize]
  constructor
  · rintro ⟨hread, -⟩
    exact ((getSpec_exact limits).canonical hread).1.transportable
  · intro h
    exact ⟨(getSpec_exact limits).reads (validateSpec_fits hvalid htext h), hvalid⟩

/-- Sixteen criteria cross the wire. -/
theorem sixteen_criteria_cross :
    decodeSpec (encodeSpec (Sample.criteriaCountSpec 16) {}) {}
      = .ok (Sample.criteriaCountSpec 16) := by
  refine (valid_spec_crosses (by decide +kernel) (by decide +kernel) fun stage hstage => ?_).mpr ?_
  · cases hstage
  · refine ⟨by decide, fun stage hstage => ?_, fun stage hstage => ?_, by decide, by decide,
      by decide, by decide⟩ <;> cases hstage

/-- Seventeen criteria are valid, and the decoder refuses them. -/
theorem seventeen_criteria_refused :
    validateSpec (Sample.criteriaCountSpec 17) {} = .ok ()
      ∧ (flat (putSpec (Sample.criteriaCountSpec 17))).length
          ≤ ({} : Limits).maxPersistenceBytes.toNat
      ∧ decodeSpec (encodeSpec (Sample.criteriaCountSpec 17) {}) {}
          = fail .resourceLimitExceeded
            "declared judging criterion count exceeds the configured bound" := by
  refine ⟨by decide +kernel, by decide +kernel, by decide +kernel⟩

end EnsembleFabric
