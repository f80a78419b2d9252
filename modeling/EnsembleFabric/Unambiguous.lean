import EnsembleFabric.StateRoundTrip

/-!
# A state file is read as nothing else

The decoder refuses what is written for a value beyond its bounds, or takes
it for that value: it never takes it for another one. So a state file that is
accepted is read as the state that was saved, whatever the bounds.

What is asked of a value is that the source's types can hold it: a text is a
text of bytes, and a counter is below `2 ^ 32`. A predicate `Representable`
says so for every record, and can be computed, since a field of the source
has a width and a list in a record is finite.

`ReadsOnly` is proved from the bottom up, in the order of the decoder: the
rules of the library carry it through sequences, lists and optional parts,
and every record contributes its fields. It is the companion of the round
trip in `StateRoundTrip`, which needs the bounds and gives acceptance;
together they say when a saved state is recovered.
-/

namespace EnsembleFabric

open Decoder (u8_exact u16_exact u32_exact u64_exact boolean_exact f64_exact i64_exact
  counter_exact wide_exact string_readsOnly bytes_readsOnly list_readsOnly labelled_exact)
open ReadsOnly (of_exact)
open Write (flat)

/-! ## Sub-codecs -/

theorem flat_flatten_ne_nil {write : List Write} (puts : List (List Write))
    (h : flat write ≠ []) : flat (write :: puts).flatten ≠ [] := by
  rw [List.flatten_cons, Write.flat_append]
  exact List.append_ne_nil_of_left_ne_nil h _

theorem u8_ne_nil (value : UInt8) : flat (Encoder.u8 value) ≠ [] := nofun

theorem putId_ne_nil {domain : IdDomain} (id : StrongId domain) : flat (putId id) ≠ [] := nofun

theorem putText_ne_nil (text : String) : flat (putText text) ≠ [] := nofun

theorem putCriterion_ne_nil (criterion : CriterionRef) : flat (putCriterion criterion) ≠ [] :=
  nofun

theorem getString_readsOnly {text : String} (h : IsByteText text) (maxBytes : UInt32)
    (what : String) : ReadsOnly (2 ^ 32) (getString maxBytes what) (flat (putText text)) text := by
  have hmap := ((string_readsOnly maxBytes (textBytes text)).relabel
    fun e => ⟨e.code, what ++ ": " ++ e.message⟩).map bytesText
  rwa [bytesText_textBytes h] at hmap

theorem roles_readsOnly (roles : RoleSet) (message : String) :
    ReadsOnly (2 ^ 32) (Decoder.enum Decoder.u32 RoleSet.cast message)
      (flat (Encoder.u32 roles.mask)) roles := by
  refine ReadsOnly.checked (of_exact u32_exact trivial) fun roles' hcast => ?_
  rw [RoleSet.cast] at hcast
  split at hcast
  · cases hcast
  · cases hcast
    rfl

theorem counter_readsOnly {value : Nat} (h : value < 2 ^ 32) :
    ReadsOnly (2 ^ 32) Decoder.counter (flat (Encoder.counter value)) value :=
  of_exact counter_exact h

/-- A list of values that are read as themselves. -/
theorem list_readsOnly_self {α : Type} {p : Decoder α} {put : α → List Write} {as : List α}
    (h : ∀ a ∈ as, ReadsOnly (2 ^ 32) p (flat (put a)) a) (hput : ∀ a, flat (put a) ≠ [])
    (bound : UInt32) (message : String) :
    ReadsOnly (2 ^ 32) (Decoder.list bound message p) (flat (Encoder.list put as)) as := by
  have hlist : ReadsOnly (2 ^ 32) (Decoder.list bound message p) (flat (Encoder.list put as))
      (as.map id) := list_readsOnly h hput bound message
  rwa [List.map_id] at hlist

theorem optional_readsOnly {α : Type} {p : Decoder α} {put : α → List Write} {seen : α → α}
    {value : Option α} (h : ∀ a ∈ value, ReadsOnly (2 ^ 32) p (flat (put a)) (seen a)) :
    ReadsOnly (2 ^ 32) (Decoder.optional p) (flat (Encoder.optional put value))
      (value.map seen) := by
  intro hsize rest b rest' hread
  obtain ⟨present, middle, hflag, hrest⟩ := Reader.run_bind_eq_ok.mp hread
  cases value with
  | none =>
    obtain ⟨rfl, rfl⟩ := of_exact boolean_exact trivial hsize _ _ _ hflag
    cases hrest
    exact ⟨rfl, rfl⟩
  | some a =>
    rw [Encoder.optional, Write.flat_append, List.length_append] at hsize
    rw [Encoder.optional, Write.flat_append, List.append_assoc] at hflag
    obtain ⟨rfl, rfl⟩ := of_exact boolean_exact trivial (by omega : _ < 2 ^ 32) _ _ _ hflag
    obtain ⟨a', last, ha, hdone⟩ := Reader.run_bind_eq_ok.mp hrest
    obtain ⟨rfl, rfl⟩ := h a rfl (by omega) _ _ _ ha
    cases hdone
    exact ⟨rfl, rfl⟩

theorem optional_readsOnly_self {α : Type} {p : Decoder α} {put : α → List Write}
    {value : Option α} (h : ∀ a ∈ value, ReadsOnly (2 ^ 32) p (flat (put a)) a) :
    ReadsOnly (2 ^ 32) (Decoder.optional p) (flat (Encoder.optional put value)) value := by
  have hoptional : ReadsOnly (2 ^ 32) (Decoder.optional p) (flat (Encoder.optional put value))
      (value.map id) := optional_readsOnly h
  rwa [Option.map_id] at hoptional

/-! ## Specifications -/

def ParticipantSpec.Representable (p : ParticipantSpec) : Prop :=
  IsByteText p.label ∧ IsByteText p.domain

theorem getParticipantSpec_readsOnly {p : ParticipantSpec} (h : p.Representable)
    (limits : Limits) :
    ReadsOnly (2 ^ 32) (getParticipantSpec limits) (flat (putParticipantSpec p)) p :=
  .field (of_exact getId_exact trivial) (.field (getString_readsOnly h.1 _ _)
    (.field (roles_readsOnly _ _) (.field (of_exact boolean_exact trivial)
    (.field (getString_readsOnly h.2 _ _) (.field (of_exact u32_exact trivial)
    (.field (of_exact u32_exact trivial) (.field (of_exact getOverride_exact trivial)
    (.field (of_exact getCompatibilityRequirement_exact trivial) .done))))))))

def StageSpec.Representable (stage : StageSpec) : Prop :=
  IsByteText stage.label ∧ ∀ domain ∈ stage.requiredDomains, IsByteText domain

theorem getStageSpec_readsOnly {stage : StageSpec} (h : stage.Representable) (limits : Limits) :
    ReadsOnly (2 ^ 32) (getStageSpec limits) (flat (putStageSpec stage)) stage :=
  .field (of_exact getId_exact trivial) (.field (getString_readsOnly h.1 _ _)
    (.field (of_exact (topologyMode_exact _) trivial)
    (.field (list_readsOnly_self (fun _ _ => of_exact getId_exact trivial) putId_ne_nil _ _)
    (.field (list_readsOnly_self (fun domain hd => getString_readsOnly (h.2 domain hd) _ _)
      putText_ne_nil _ _)
    (.field (of_exact boolean_exact trivial) .done)))))

theorem getQuorumPolicy_readsOnly (policy : QuorumPolicy) (limits : Limits) :
    ReadsOnly (2 ^ 32) (getQuorumPolicy limits) (flat (putQuorumPolicy policy)) policy :=
  .field (of_exact u32_exact trivial)
    (.field (list_readsOnly_self (fun _ _ => of_exact getRoleQuota_exact trivial)
      (fun _ => flat_flatten_ne_nil _ (u8_ne_nil _)) _ _)
    (.field (of_exact u32_exact trivial) (.field (of_exact u32_exact trivial)
    (.field (of_exact u32_exact trivial) (.field (of_exact (voteBasis_exact _) trivial)
    (.field (of_exact (labelled_exact boolean_exact _) trivial)
    (.field (of_exact (labelled_exact boolean_exact _) trivial)
    (.field (of_exact (labelled_exact boolean_exact _) trivial)
    (.field (of_exact (labelled_exact boolean_exact _) trivial)
    (.field (of_exact u32_exact trivial) (.field (of_exact u32_exact trivial) .done)))))))))))

theorem getEvidenceRequirement_readsOnly (evidence : EvidenceRequirement) (limits : Limits) :
    ReadsOnly (2 ^ 32) (getEvidenceRequirement limits) (flat (putEvidenceRequirement evidence))
      evidence :=
  .field (of_exact u32_exact trivial) (.guard (.field (of_exact u32_exact trivial)
    (.field (of_exact boolean_exact trivial)
    (.field (list_readsOnly_self (fun _ _ => of_exact getCriterion_exact trivial)
      putCriterion_ne_nil _ _)
    (.field (of_exact boolean_exact trivial)
    (.field (of_exact boolean_exact trivial) .done))))))

theorem getArbitrationPolicy_readsOnly (arbitration : ArbitrationPolicy) :
    ReadsOnly (2 ^ 32) getArbitrationPolicy (flat (putArbitrationPolicy arbitration))
      arbitration :=
  .field (list_readsOnly_self (fun _ _ => of_exact (arbitrationFactor_exact _) trivial)
      (fun _ => u8_ne_nil _) _ _)
    (.field (of_exact (tieBreak_exact _) trivial) (.field (of_exact boolean_exact trivial)
    (.field (of_exact u32_exact trivial) .done)))

theorem getFallbackPolicy_readsOnly (fallback : FallbackPolicy) (limits : Limits) :
    ReadsOnly (2 ^ 32) (getFallbackPolicy limits) (flat (putFallbackPolicy fallback)) fallback :=
  .field (of_exact boolean_exact trivial)
    (.field (list_readsOnly_self (fun _ _ => of_exact (fallbackTrigger_exact _) trivial)
      (fun _ => u8_ne_nil _) _ _)
    (.field (list_readsOnly_self (fun _ _ => of_exact getId_exact trivial) putId_ne_nil _ _)
    (.field (of_exact boolean_exact trivial) (.field (of_exact u32_exact trivial) .done))))

/-- The texts of the specification are texts of bytes. -/
@[mk_iff] structure EnsembleSpec.Representable (spec : EnsembleSpec) : Prop where
  label : IsByteText spec.label
  taskClass : IsByteText spec.taskClass
  participants : ∀ p ∈ spec.participants, p.Representable
  stages : ∀ stage ∈ spec.stages, stage.Representable

theorem getSpec_readsOnly {spec : EnsembleSpec} (h : spec.Representable) (limits : Limits) :
    ReadsOnly (2 ^ 32) (getSpec limits) (flat (putSpec spec)) spec :=
  .field (of_exact u32_exact trivial) (.guard (.field (of_exact getId_exact trivial)
    (.field (of_exact getId_exact trivial) (.field (getString_readsOnly h.label _ _)
    (.field (getString_readsOnly h.taskClass _ _) (.field (of_exact u32_exact trivial)
    (.field (of_exact u64_exact trivial)
    (.field (list_readsOnly_self
      (fun p hp => getParticipantSpec_readsOnly (h.participants p hp) limits)
      (fun _ => flat_flatten_ne_nil _ (putId_ne_nil _)) _ _)
    (.field (list_readsOnly_self
      (fun stage hstage => getStageSpec_readsOnly (h.stages stage hstage) limits)
      (fun _ => flat_flatten_ne_nil _ (putId_ne_nil _)) _ _)
    (.field (getQuorumPolicy_readsOnly _ limits)
    (.field (of_exact getAggregationPolicy_exact trivial)
    (.field (getArbitrationPolicy_readsOnly _) (.field (getFallbackPolicy_readsOnly _ limits)
    (.field (of_exact getCompletionPolicy_exact trivial)
    (.field (of_exact getRetryPolicy_exact trivial)
    (.field (of_exact getCancellationPolicy_exact trivial)
    (.field (getEvidenceRequirement_readsOnly _ limits)
    (.field (list_readsOnly_self (fun _ _ => of_exact getCriterion_exact trivial)
      putCriterion_ne_nil _ _)
    (.field (of_exact getCompatibilityRequirement_exact trivial)
    (.field (of_exact u32_exact trivial)
    (.field (of_exact u64_exact trivial) .done)))))))))))))))))))))

/-- What is written for a specification is decoded as it, or refused. -/
theorem decodeSpec_only {spec read : EnsembleSpec} {limits : Limits} (h : spec.Representable)
    (hsize : (flat (putSpec spec)).length < 2 ^ 32)
    (hdecoded : decodeSpec (flat (putSpec spec)) limits = .ok read) : read = spec := by
  have hread := (decodeSpec_eq_ok.mp hdecoded).1
  rw [← List.append_nil (flat (putSpec spec))] at hread
  exact (getSpec_readsOnly h limits hsize _ _ _ hread).1

/-! ## Reports -/

theorem getIdList_readsOnly (maxCount : UInt32) (ids : List ParticipantId) :
    ReadsOnly (2 ^ 32) (getIdList maxCount) (flat (putIdList ids)) ids :=
  list_readsOnly_self (fun _ _ => of_exact getId_exact trivial) putId_ne_nil _ _

theorem getNotes_readsOnly {notes : List String} (h : ∀ note ∈ notes, IsByteText note)
    (limits : Limits) (what : String) :
    ReadsOnly (2 ^ 32) (getNotes limits what) (flat (Encoder.list putText notes)) notes :=
  list_readsOnly_self (fun note hnote => getString_readsOnly (h note hnote) _ _) putText_ne_nil _ _

@[mk_iff] structure QuorumReport.Representable (r : QuorumReport) : Prop where
  counters : ∀ n ∈ r.counters, n < 2 ^ 32
  notes : ∀ note ∈ r.notes, IsByteText note

theorem getQuorumReport_readsOnly {r : QuorumReport} (h : r.Representable) (limits : Limits) :
    ReadsOnly (2 ^ 32) (getQuorumReport limits) (flat (putQuorumReport r)) r := by
  have hcounters := h.counters
  simp only [QuorumReport.counters, List.forall_mem_cons, List.not_mem_nil, false_implies,
    implies_true, and_true] at hcounters
  obtain ⟨hdenominator, hcontributors, habstentions, hfailures, hoptional, hunavailable, hstale,
    htotal, hpresent, hevaluations, hvalid, hduplicates, hrejected, hthreshold, hleading, hmet,
    hrequired⟩ := hcounters
  exact .field (of_exact (quorumState_exact _) trivial)
    (.field (of_exact (voteBasis_exact _) trivial) (.field (counter_readsOnly hdenominator)
    (.field (counter_readsOnly hcontributors) (.field (counter_readsOnly habstentions)
    (.field (counter_readsOnly hfailures) (.field (counter_readsOnly hoptional)
    (.field (counter_readsOnly hunavailable) (.field (counter_readsOnly hstale)
    (.field (counter_readsOnly htotal) (.field (counter_readsOnly hpresent)
    (.field (counter_readsOnly hevaluations) (.field (counter_readsOnly hvalid)
    (.field (counter_readsOnly hduplicates) (.field (counter_readsOnly hrejected)
    (.field (of_exact u32_exact trivial) (.field (counter_readsOnly hthreshold)
    (.field (counter_readsOnly hleading) (.field (counter_readsOnly hmet)
    (.field (counter_readsOnly hrequired) (.field (of_exact boolean_exact trivial)
    (.field (of_exact boolean_exact trivial) (.field (of_exact getId_exact trivial)
    (.field (of_exact getId_exact trivial) (.field (of_exact getId_exact trivial)
    (.field (getIdList_readsOnly _ _)
    (.field (list_readsOnly_self (fun _ _ => of_exact getId_exact trivial) putId_ne_nil _ _)
    (.field (getIdList_readsOnly _ _) (.field (getIdList_readsOnly _ _)
    (.field (getIdList_readsOnly _ _)
    (.field (getNotes_readsOnly h.notes limits _) .done))))))))))))))))))))))))))))))

def ConsensusReport.Representable (r : ConsensusReport) : Prop := ∀ n ∈ r.counters, n < 2 ^ 32

theorem getConsensusReport_readsOnly {r : ConsensusReport} (h : r.Representable)
    (limits : Limits) :
    ReadsOnly (2 ^ 32) (getConsensusReport limits) (flat (putConsensusReport r)) r := by
  simp only [ConsensusReport.Representable, ConsensusReport.counters, List.forall_mem_cons,
    List.not_mem_nil, false_implies, implies_true, and_true] at h
  obtain ⟨hagreeing, hdisagreeing, habstaining, hmissing, hinvalid, heligible, hdeclared,
    hthreshold, hbasis, hrunner⟩ := h
  exact .field (of_exact (consensusState_exact _) trivial)
    (.field (of_exact getId_exact trivial) (.field (of_exact getId_exact trivial)
    (.field (of_exact getId_exact trivial) (.field (counter_readsOnly hagreeing)
    (.field (counter_readsOnly hdisagreeing) (.field (counter_readsOnly habstaining)
    (.field (counter_readsOnly hmissing) (.field (counter_readsOnly hinvalid)
    (.field (counter_readsOnly heligible) (.field (counter_readsOnly hdeclared)
    (.field (of_exact u32_exact trivial) (.field (counter_readsOnly hthreshold)
    (.field (counter_readsOnly hbasis) (.field (counter_readsOnly hrunner)
    (.field (of_exact boolean_exact trivial) (.field (of_exact getId_exact trivial)
    (.field (of_exact getId_exact trivial) (.field (of_exact getId_exact trivial)
    (.field (getIdList_readsOnly _ _) (.field (getIdList_readsOnly _ _)
    (.field (getIdList_readsOnly _ _) (.field (getIdList_readsOnly _ _)
    (.field (list_readsOnly_self (fun _ _ => of_exact getId_exact trivial) putId_ne_nil _ _)
      .done)))))))))))))))))))))))

theorem getRankingFactorValue_readsOnly {v : RankingFactorValue} (h : IsByteText v.detail)
    (limits : Limits) :
    ReadsOnly (2 ^ 32) (getRankingFactorValue limits) (flat (putRankingFactorValue v)) v :=
  .field (of_exact (arbitrationFactor_exact _) trivial) (.field (of_exact f64_exact trivial)
    (.field (getString_readsOnly h _ _) .done))

@[mk_iff] structure CandidateRanking.Representable (r : CandidateRanking) : Prop where
  detail : IsByteText r.eliminationDetail
  factors : ∀ v ∈ r.factors, IsByteText v.detail
  rank : -2 ^ 63 ≤ r.rank ∧ r.rank < 2 ^ 63

theorem getCandidateRanking_readsOnly {r : CandidateRanking} (h : r.Representable)
    (limits : Limits) :
    ReadsOnly (2 ^ 32) (getCandidateRanking limits) (flat (putCandidateRanking r)) r :=
  .field (of_exact getId_exact trivial) (.field (of_exact getId_exact trivial)
    (.field (of_exact getId_exact trivial) (.field (of_exact getId_exact trivial)
    (.field (of_exact (role_exact _) trivial) (.field (of_exact boolean_exact trivial)
    (.field (of_exact (eliminationReason_exact _) trivial)
    (.field (getString_readsOnly h.detail _ _)
    (.field (list_readsOnly_self
      (fun v hv => getRankingFactorValue_readsOnly (h.factors v hv) limits)
      (fun _ => flat_flatten_ne_nil _ (u8_ne_nil _)) _ _)
    (.field (of_exact i64_exact h.rank) (.field (of_exact boolean_exact trivial) .done))))))))))

@[mk_iff] structure ArbitrationReport.Representable (r : ArbitrationReport) : Prop where
  ranking : ∀ ranking ∈ r.ranking, ranking.Representable
  considered : r.considered < 2 ^ 32
  eliminated : r.eliminated < 2 ^ 32
  notes : ∀ note ∈ r.notes, IsByteText note

theorem getArbitrationReport_readsOnly {r : ArbitrationReport} (h : r.Representable)
    (limits : Limits) :
    ReadsOnly (2 ^ 32) (getArbitrationReport limits) (flat (putArbitrationReport r)) r :=
  .field (of_exact getId_exact trivial) (.field (of_exact getId_exact trivial)
    (.field (of_exact getId_exact trivial) (.field (of_exact (tieBreak_exact _) trivial)
    (.field (list_readsOnly_self (fun _ _ => of_exact (arbitrationFactor_exact _) trivial)
      (fun _ => u8_ne_nil _) _ _)
    (.field (list_readsOnly_self
      (fun ranking hranking => getCandidateRanking_readsOnly (h.ranking ranking hranking) limits)
      (fun _ => flat_flatten_ne_nil _ (putId_ne_nil _)) _ _)
    (.field (of_exact getId_exact trivial) (.field (of_exact getId_exact trivial)
    (.field (of_exact getId_exact trivial) (.field (of_exact (role_exact _) trivial)
    (.field (of_exact boolean_exact trivial) (.field (of_exact boolean_exact trivial)
    (.field (counter_readsOnly h.considered) (.field (counter_readsOnly h.eliminated)
    (.field (getNotes_readsOnly h.notes limits _) .done))))))))))))))

/-! ## Results -/

@[mk_iff] structure CandidateSnapshot.Representable (s : CandidateSnapshot) : Prop where
  counters : ∀ n ∈ s.counters, n < 2 ^ 32
  texts : ∀ text ∈ s.texts, IsByteText text

theorem getCandidateSnapshot_readsOnly {s : CandidateSnapshot} (h : s.Representable)
    (limits : Limits) :
    ReadsOnly (2 ^ 32) (getCandidateSnapshot limits) (flat (putCandidateSnapshot s)) s := by
  obtain ⟨hcounters, htexts⟩ := h
  simp only [CandidateSnapshot.counters, CandidateSnapshot.texts, List.forall_mem_cons,
    List.not_mem_nil, false_implies, implies_true, and_true] at hcounters htexts
  obtain ⟨hattempt, hused, hbytes, hevaluations, hhard⟩ := hcounters
  obtain ⟨hdomain, hdetail, helimination⟩ := htexts
  exact .field (of_exact getId_exact trivial) (.field (of_exact getId_exact trivial)
    (.field (of_exact getId_exact trivial) (.field (of_exact getId_exact trivial)
    (.field (of_exact getId_exact trivial) (.field (of_exact getId_exact trivial)
    (.field (of_exact getId_exact trivial) (.field (of_exact getId_exact trivial)
    (.field (of_exact (role_exact _) trivial) (.field (of_exact getId_exact trivial)
    (.field (of_exact (candidateState_exact _) trivial) (.field (counter_readsOnly hattempt)
    (.field (counter_readsOnly hused) (.field (getString_readsOnly hdomain _ _)
    (.field (bytes_readsOnly _ _) (.field (of_exact u64_exact trivial)
    (.field (counter_readsOnly hbytes) (.guard (.field (of_exact getId_exact trivial)
    (.field (of_exact getId_exact trivial) (.field (of_exact getId_exact trivial)
    (.field (of_exact getId_exact trivial) (.field (of_exact (failure_exact _) trivial)
    (.field (getString_readsOnly hdetail _ _) (.field (counter_readsOnly hevaluations)
    (.field (counter_readsOnly hhard) (.field (of_exact boolean_exact trivial)
    (.field (of_exact boolean_exact trivial)
    (.field (getString_readsOnly helimination _ _) .done))))))))))))))))))))))))))))

theorem getEvaluationSnapshot_readsOnly {s : EvaluationSnapshot} (h : IsByteText s.rationale)
    (limits : Limits) :
    ReadsOnly (2 ^ 32) (getEvaluationSnapshot limits) (flat (putEvaluationSnapshot s)) s :=
  .field (of_exact getId_exact trivial) (.field (of_exact getId_exact trivial)
    (.field (of_exact getId_exact trivial) (.field (of_exact getId_exact trivial)
    (.field (of_exact getId_exact trivial) (.field (of_exact getId_exact trivial)
    (.field (of_exact getId_exact trivial) (.field (of_exact getId_exact trivial)
    (.field (of_exact (role_exact _) trivial) (.field (of_exact getId_exact trivial)
    (.field (of_exact getId_exact trivial) (.field (of_exact getCriterion_exact trivial)
    (.field (of_exact (criterionKind_exact _) trivial)
    (.field (of_exact (verification_exact _) trivial)
    (.field (of_exact (judgment_exact _) trivial) (.field (of_exact boolean_exact trivial)
    (.field (of_exact f64_exact trivial) (.field (of_exact f64_exact trivial)
    (.field (bytes_readsOnly _ _) (.field (getString_readsOnly h _ _)
    (.field (of_exact getId_exact trivial) (.field (of_exact getId_exact trivial)
    (.field (of_exact getId_exact trivial) (.field (of_exact getId_exact trivial)
    (.field (of_exact boolean_exact trivial)
    (.field (of_exact boolean_exact trivial) .done)))))))))))))))))))))))))

def ParticipantOutcome.Representable (o : ParticipantOutcome) : Prop :=
  ∀ n ∈ o.counters, n < 2 ^ 32

theorem getParticipantOutcome_readsOnly {o : ParticipantOutcome} (h : o.Representable) :
    ReadsOnly (2 ^ 32) getParticipantOutcome (flat (putParticipantOutcome o)) o := by
  simp only [ParticipantOutcome.Representable, ParticipantOutcome.counters, List.forall_mem_cons,
    List.not_mem_nil, false_implies, implies_true, and_true] at h
  obtain ⟨hcandidates, hvalid, hfailed, habstained, hevaluations, hretries⟩ := h
  exact .field (of_exact getId_exact trivial) (.field (of_exact getId_exact trivial)
    (.field (roles_readsOnly _ _) (.field (of_exact boolean_exact trivial)
    (.field (of_exact (participantStatus_exact _) trivial) (.field (counter_readsOnly hcandidates)
    (.field (counter_readsOnly hvalid) (.field (counter_readsOnly hfailed)
    (.field (counter_readsOnly habstained) (.field (counter_readsOnly hevaluations)
    (.field (counter_readsOnly hretries) (.field (of_exact boolean_exact trivial)
    (.field (of_exact boolean_exact trivial) .done))))))))))))

def ExplanationEntry.Representable (entry : ExplanationEntry) : Prop :=
  IsByteText entry.subject ∧ IsByteText entry.detail

theorem getExplanationEntry_readsOnly {entry : ExplanationEntry} (h : entry.Representable)
    (limits : Limits) :
    ReadsOnly (2 ^ 32) (getExplanationEntry limits) (flat (putExplanationEntry entry)) entry :=
  .field (getString_readsOnly h.1 _ _) (.field (getString_readsOnly h.2 _ _) .done)

@[mk_iff] structure EnsembleResult.Representable (r : EnsembleResult) : Prop where
  payloadBytes : r.payloadBytes < 2 ^ 32
  quorum : r.quorum.Representable
  consensus : r.consensus.Representable
  arbitration : r.arbitration.Representable
  participants : ∀ o ∈ r.participants, o.Representable
  candidates : ∀ s ∈ r.candidates, s.Representable
  evaluations : ∀ s ∈ r.evaluations, IsByteText s.rationale
  explanation : ∀ entry ∈ r.explanation, entry.Representable

theorem getResult_readsOnly {r : EnsembleResult} (h : r.Representable) (limits : Limits) :
    ReadsOnly (2 ^ 32) (getResult limits) (flat (putResult r)) r :=
  .field (of_exact getId_exact trivial) (.field (of_exact getId_exact trivial)
    (.field (of_exact getId_exact trivial) (.field (of_exact getId_exact trivial)
    (.field (of_exact getId_exact trivial) (.field (of_exact getId_exact trivial)
    (.field (of_exact getId_exact trivial) (.field (of_exact (decision_exact _) trivial)
    (.field (of_exact boolean_exact trivial) (.field (of_exact getId_exact trivial)
    (.field (of_exact getId_exact trivial) (.field (of_exact getId_exact trivial)
    (.field (of_exact getId_exact trivial) (.field (of_exact (role_exact _) trivial)
    (.field (bytes_readsOnly _ _) (.field (of_exact u64_exact trivial)
    (.field (counter_readsOnly h.payloadBytes) (.guard
    (.field (getQuorumReport_readsOnly h.quorum limits)
    (.field (getConsensusReport_readsOnly h.consensus limits)
    (.field (getArbitrationReport_readsOnly h.arbitration limits)
    (.field (list_readsOnly_self
      (fun o ho => getParticipantOutcome_readsOnly (h.participants o ho))
      (fun _ => flat_flatten_ne_nil _ (putId_ne_nil _)) _ _)
    (.field (list_readsOnly_self
      (fun s hs => getCandidateSnapshot_readsOnly (h.candidates s hs) limits)
      (fun _ => flat_flatten_ne_nil _ (putId_ne_nil _)) _ _)
    (.field (list_readsOnly_self
      (fun s hs => getEvaluationSnapshot_readsOnly (h.evaluations s hs) limits)
      (fun _ => flat_flatten_ne_nil _ (putId_ne_nil _)) _ _)
    (.field (list_readsOnly_self
      (fun entry hentry => getExplanationEntry_readsOnly (h.explanation entry hentry) limits)
      (fun _ => flat_flatten_ne_nil _ (putText_ne_nil _)) _ _)
    (.field (of_exact boolean_exact trivial) (.field (of_exact u32_exact trivial)
    (.field (of_exact getId_exact trivial)
    (.field (of_exact u64_exact trivial) .done))))))))))))))))))))))))))))

/-! ## Records -/

@[mk_iff] structure ParticipantRecord.Representable (p : ParticipantRecord) : Prop where
  declaration : p.declaration.Representable
  detail : IsByteText p.failureDetail
  counters : ∀ n ∈ p.counters, n < 2 ^ 32

theorem getParticipantRecord_readsOnly {p : ParticipantRecord} (h : p.Representable)
    (limits : Limits) :
    ReadsOnly (2 ^ 32) (getParticipantRecord limits) (flat (putParticipantRecord p)) p := by
  have hcounters := h.counters
  simp only [ParticipantRecord.counters, List.forall_mem_cons, List.not_mem_nil, false_implies,
    implies_true, and_true] at hcounters
  obtain ⟨hreplacements, hcompleted, hfailed, habstained, hevaluations, hretries⟩ := hcounters
  exact .field (of_exact getId_exact trivial) (.field (of_exact getId_exact trivial)
    (.field (getParticipantSpec_readsOnly h.declaration limits)
    (.field (of_exact (participantStatus_exact _) trivial) (.field (of_exact getId_exact trivial)
    (.field (of_exact getId_exact trivial) (.field (of_exact getId_exact trivial)
    (.field (of_exact decodeProfile_exact trivial) (.field (of_exact boolean_exact trivial)
    (.field (getString_readsOnly h.detail _ _) (.field (counter_readsOnly hreplacements)
    (.field (counter_readsOnly hcompleted) (.field (counter_readsOnly hfailed)
    (.field (counter_readsOnly habstained) (.field (counter_readsOnly hevaluations)
    (.field (counter_readsOnly hretries)
    (.field (of_exact boolean_exact trivial) .done))))))))))))))))

@[mk_iff] structure CandidateRecord.Representable (c : CandidateRecord) : Prop where
  counters : ∀ n ∈ c.counters, n < 2 ^ 32
  texts : ∀ text ∈ c.texts, IsByteText text

theorem getCandidateRecord_readsOnly {c : CandidateRecord} (h : c.Representable)
    (limits : Limits) :
    ReadsOnly (2 ^ 32) (getCandidateRecord limits) (flat (putCandidateRecord c)) c := by
  obtain ⟨hcounters, htexts⟩ := h
  simp only [CandidateRecord.counters, CandidateRecord.texts, List.forall_mem_cons,
    List.not_mem_nil, false_implies, implies_true, and_true] at hcounters htexts
  obtain ⟨hattempt, hused, hevaluations, hfailures, hunknowns, hpredicates⟩ := hcounters
  obtain ⟨hdomain, hdetail, helimination⟩ := htexts
  exact .field (of_exact getId_exact trivial) (.field (of_exact getId_exact trivial)
    (.field (of_exact getId_exact trivial) (.field (of_exact getId_exact trivial)
    (.field (of_exact (role_exact _) trivial) (.field (of_exact getId_exact trivial)
    (.field (of_exact (candidateState_exact _) trivial) (.field (counter_readsOnly hattempt)
    (.field (counter_readsOnly hused) (.field (getString_readsOnly hdomain _ _)
    (.field (bytes_readsOnly _ _) (.field (of_exact u64_exact trivial)
    (.field (of_exact getId_exact trivial) (.field (of_exact getId_exact trivial)
    (.field (of_exact getId_exact trivial) (.field (of_exact getId_exact trivial)
    (.field (of_exact getId_exact trivial) (.field (of_exact (failure_exact _) trivial)
    (.field (getString_readsOnly hdetail _ _) (.field (counter_readsOnly hevaluations)
    (.field (counter_readsOnly hfailures) (.field (counter_readsOnly hunknowns)
    (.field (counter_readsOnly hpredicates) (.field (of_exact u32_exact trivial)
    (.field (of_exact u32_exact trivial) (.field (of_exact boolean_exact trivial)
    (.field (of_exact boolean_exact trivial)
    (.field (getString_readsOnly helimination _ _) .done)))))))))))))))))))))))))))

theorem getEvaluationRecord_readsOnly {r : EvaluationRecord} (h : IsByteText r.rationale)
    (limits : Limits) :
    ReadsOnly (2 ^ 32) (getEvaluationRecord limits) (flat (putEvaluationRecord r)) r :=
  .field (of_exact getId_exact trivial) (.field (of_exact getId_exact trivial)
    (.field (of_exact getId_exact trivial) (.field (of_exact getId_exact trivial)
    (.field (of_exact (role_exact _) trivial) (.field (of_exact getId_exact trivial)
    (.field (of_exact getId_exact trivial) (.field (of_exact getCriterion_exact trivial)
    (.field (of_exact (criterionKind_exact _) trivial)
    (.field (of_exact (verification_exact _) trivial)
    (.field (of_exact (judgment_exact _) trivial) (.field (of_exact boolean_exact trivial)
    (.field (of_exact f64_exact trivial) (.field (of_exact f64_exact trivial)
    (.field (bytes_readsOnly _ _) (.field (getString_readsOnly h _ _)
    (.field (of_exact getId_exact trivial) (.field (of_exact getId_exact trivial)
    (.field (of_exact getId_exact trivial) (.field (of_exact getId_exact trivial)
    (.field (of_exact u64_exact trivial)
    (.field (of_exact boolean_exact trivial) .done)))))))))))))))))))))

@[mk_iff] structure ExecutionRecord.Representable (x : ExecutionRecord) : Prop where
  stageIndex : x.stageIndex < 2 ^ 64
  reason : IsByteText x.cancellationReason
  result : ∀ r ∈ x.result, r.Representable
  candidates : ∀ c ∈ x.candidates, c.Representable
  evaluations : ∀ r ∈ x.evaluations, IsByteText r.rationale
  stages : ∀ stage ∈ x.extraStages, stage.Representable

theorem getExecutionRecord_readsOnly {x : ExecutionRecord} (h : x.Representable)
    (limits : Limits) :
    ReadsOnly (2 ^ 32) (getExecutionRecord limits) (flat (putExecutionRecord x)) x.stored :=
  .field (of_exact getId_exact trivial) (.field (of_exact getId_exact trivial)
    (.field (of_exact (executionStatus_exact _) trivial) (.field (of_exact getId_exact trivial)
    (.field (of_exact u64_exact trivial) (.field (of_exact wide_exact h.stageIndex) (.guard
    (.field (of_exact boolean_exact trivial) (.field (of_exact boolean_exact trivial)
    (.field (of_exact boolean_exact trivial) (.field (of_exact u32_exact trivial)
    (.field (of_exact boolean_exact trivial) (.field (getString_readsOnly h.reason _ _)
    (.field (of_exact boolean_exact trivial) (.field (of_exact getId_exact trivial)
    (.field (of_exact getId_exact trivial)
    (.field (optional_readsOnly_self fun r hr => getResult_readsOnly (h.result r hr) limits)
    (.field (list_readsOnly_self
      (fun c hc => getCandidateRecord_readsOnly (h.candidates c hc) limits)
      (fun _ => flat_flatten_ne_nil _ (putId_ne_nil _)) _ _)
    (.field (list_readsOnly_self
      (fun r hr => getEvaluationRecord_readsOnly (h.evaluations r hr) limits)
      (fun _ => flat_flatten_ne_nil _ (putId_ne_nil _)) _ _)
    (.field (list_readsOnly_self
      (fun stage hstage => getStageSpec_readsOnly (h.stages stage hstage) limits)
      (fun _ => flat_flatten_ne_nil _ (putId_ne_nil _)) _ _)
    (.field (list_readsOnly_self (fun _ _ => of_exact getCommitRecord_exact trivial)
      (fun _ => flat_flatten_ne_nil _ (putId_ne_nil _)) _ _)
      .done))))))))))))))))))))

/-! ## Ensembles and the state -/

/-- The encoding of the specification is stored whole. -/
def EnsembleSpec.Whole (limits : Limits) (spec : EnsembleSpec) : Prop :=
  encodeSpec spec limits = flat (putSpec spec)

theorem getStoredSpec_readsOnly {spec : EnsembleSpec} {limits : Limits} (h : spec.Representable)
    (hwhole : spec.Whole limits) :
    ReadsOnly (2 ^ 32) (getStoredSpec limits) (flat (putStoredSpec limits spec)) spec := by
  intro hsize rest read rest' hread
  obtain ⟨data, middle, hdata, hspec⟩ := Reader.run_bind_eq_ok.mp hread
  obtain ⟨rfl, rfl⟩ := bytes_readsOnly _ _ hsize _ _ _ hdata
  have hshort : (flat (putSpec spec)).length < 2 ^ 32 := by
    rw [putStoredSpec, Encoder.bytes, Write.flat_append, List.length_append, Write.flat_cons,
      Write.flat_nil, List.append_nil, Write.bytes, hwhole] at hsize
    omega
  rw [hwhole] at hspec
  cases hdecoded : decodeSpec (flat (putSpec spec)) limits with
  | error e =>
    rw [hdecoded] at hspec
    cases hspec
  | ok spec' =>
    rw [hdecoded] at hspec
    cases hspec
    exact ⟨decodeSpec_only h hshort hdecoded, rfl⟩

@[mk_iff] structure EnsembleRecord.Representable (e : EnsembleRecord) : Prop where
  spec : e.spec.Representable
  participants : ∀ p ∈ e.participants, p.Representable
  execution : ∀ x ∈ e.execution, x.Representable
  history : ∀ r ∈ e.history, r.Representable

theorem getEnsembleRecord_readsOnly {e : EnsembleRecord} {limits : Limits}
    (h : e.Representable) (hwhole : e.spec.Whole limits) :
    ReadsOnly (2 ^ 32) (getEnsembleRecord limits) (flat (putEnsembleRecord limits e)) e.stored :=
  .field (getStoredSpec_readsOnly h.spec hwhole) (.field (of_exact boolean_exact trivial)
    (.field (list_readsOnly_self
      (fun p hp => getParticipantRecord_readsOnly (h.participants p hp) limits)
      (fun _ => flat_flatten_ne_nil _ (putId_ne_nil _)) _ _)
    (.field (optional_readsOnly fun x hx => getExecutionRecord_readsOnly (h.execution x hx) limits)
    (.field (list_readsOnly_self (fun r hr => getResult_readsOnly (h.history r hr) limits)
      (fun _ => flat_flatten_ne_nil _ (putId_ne_nil _)) _ _) .done))))

@[mk_iff] structure DurableState.Representable (state : DurableState) : Prop where
  counters : ∀ n ∈ state.counters.all, n < 2 ^ 64
  ensembles : ∀ e ∈ state.ensembles, e.Representable

theorem putStoredSpec_ne_nil (limits : Limits) (spec : EnsembleSpec) :
    flat (putStoredSpec limits spec) ≠ [] := nofun

theorem getState_readsOnly {state : DurableState} {limits : Limits} (h : state.Representable)
    (hwhole : ∀ e ∈ state.ensembles, e.spec.Whole limits) :
    ReadsOnly (2 ^ 32) (getState limits) (flat (putState limits state)) state.stored := by
  have hcounters := h.counters
  simp only [Counters.all, List.forall_mem_cons, List.not_mem_nil, false_implies, implies_true,
    and_true] at hcounters
  obtain ⟨haccepted, hconflicting, hstale, hsubmissions, hduplicates, hvotes, hfallbacks,
    hcancellations, hsupersessions, hrevalidations⟩ := hcounters
  exact .field (of_exact u32_exact trivial) (.guard (.field (of_exact getId_exact trivial)
    (.field (of_exact getId_exact trivial) (.field (of_exact u64_exact trivial)
    (.field (of_exact u64_exact trivial) (.field (of_exact u64_exact trivial)
    (.field (of_exact u64_exact trivial) (.field (of_exact u64_exact trivial)
    (.field (of_exact wide_exact haccepted) (.field (of_exact wide_exact hconflicting)
    (.field (of_exact wide_exact hstale) (.field (of_exact wide_exact hsubmissions)
    (.field (of_exact wide_exact hduplicates) (.field (of_exact wide_exact hvotes)
    (.field (of_exact wide_exact hfallbacks) (.field (of_exact u64_exact trivial)
    (.field (of_exact wide_exact hcancellations) (.field (of_exact wide_exact hsupersessions)
    (.field (of_exact wide_exact hrevalidations)
    (.field (list_readsOnly
      (fun e he => getEnsembleRecord_readsOnly (h.ensembles e he) (hwhole e he))
      (fun _ => flat_flatten_ne_nil _ (putStoredSpec_ne_nil _ _)) _ _)
      .done))))))))))))))))))))

/-- What is written for a state is decoded as it, or refused. -/
theorem decodeState_only {state read : DurableState} {limits : Limits} (h : state.Representable)
    (hwhole : ∀ e ∈ state.ensembles, e.spec.Whole limits)
    (hsize : (flat (putState limits state)).length < 2 ^ 32)
    (hdecoded : decodeState (flat (putState limits state)) limits = .ok read) :
    read = state.stored := by
  simp only [decodeState, requireExhausted, Checks.bind_eq_ok, require_eq_ok,
    Checks.pure_eq_ok] at hdecoded
  obtain ⟨⟨read', remaining⟩, hread, _, hempty, rfl⟩ := hdecoded
  rw [← List.append_nil (flat (putState limits state))] at hread
  exact (getState_readsOnly h hwhole hsize _ _ _ hread).1

/-! ## Deciding -/

instance (p : ParticipantSpec) : Decidable p.Representable :=
  inferInstanceAs (Decidable (IsByteText p.label ∧ IsByteText p.domain))

instance (stage : StageSpec) : Decidable stage.Representable :=
  inferInstanceAs (Decidable
    (IsByteText stage.label ∧ ∀ domain ∈ stage.requiredDomains, IsByteText domain))

instance (spec : EnsembleSpec) : Decidable spec.Representable :=
  decidable_of_iff _ (spec.representable_iff).symm

instance (r : QuorumReport) : Decidable r.Representable :=
  decidable_of_iff _ (r.representable_iff).symm

instance (r : ConsensusReport) : Decidable r.Representable :=
  inferInstanceAs (Decidable (∀ n ∈ r.counters, n < 2 ^ 32))

instance (r : CandidateRanking) : Decidable r.Representable :=
  decidable_of_iff _ (r.representable_iff).symm

instance (r : ArbitrationReport) : Decidable r.Representable :=
  decidable_of_iff _ (r.representable_iff).symm

instance (s : CandidateSnapshot) : Decidable s.Representable :=
  decidable_of_iff _ (s.representable_iff).symm

instance (o : ParticipantOutcome) : Decidable o.Representable :=
  inferInstanceAs (Decidable (∀ n ∈ o.counters, n < 2 ^ 32))

instance (entry : ExplanationEntry) : Decidable entry.Representable :=
  inferInstanceAs (Decidable (IsByteText entry.subject ∧ IsByteText entry.detail))

instance (r : EnsembleResult) : Decidable r.Representable :=
  decidable_of_iff _ (r.representable_iff).symm

instance (p : ParticipantRecord) : Decidable p.Representable :=
  decidable_of_iff _ (p.representable_iff).symm

instance (c : CandidateRecord) : Decidable c.Representable :=
  decidable_of_iff _ (c.representable_iff).symm

instance (x : ExecutionRecord) : Decidable x.Representable :=
  decidable_of_iff _ (x.representable_iff).symm

instance (e : EnsembleRecord) : Decidable e.Representable :=
  decidable_of_iff _ (e.representable_iff).symm

/-- Whether the values of a state are values of the source's types can be
computed. -/
instance (state : DurableState) : Decidable state.Representable :=
  decidable_of_iff _ (state.representable_iff).symm

end EnsembleFabric
