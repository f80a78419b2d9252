import EnsembleFabric.MessageCodec
import EnsembleFabric.ResultRoundTrip
import EnsembleFabric.StateCodec

/-!
# What is read back from a state file

The decoder takes what is written for a state back if and only if every part
of it is within the bounds of the decoder (`DurableState.Fits`), and what it
reads is the state without the parts that are not written
(`DurableState.stored`).

The bounds include the ranges of the source's types, as they do for a result.
Each record has its `Fits`, made of the counters it keeps in 32 bits, the
texts with their bounds and the parts with theirs, and one lemma that its
reader is exact under it. `decodeState_eq_ok` is put together from these, in
the order of the file.

A specification in a file is read by a decoder of its own from a run of
bytes. For that to give the specification back it must be valid and within
the bounds of that decoder, and its encoding must not have been cut to the
configured size (`EnsembleSpec.Storable`).
-/

namespace EnsembleFabric

open Decoder (u32_exact u64_exact boolean_exact f64_exact bytes_exact list_exact counter_exact
  list_readsAs)
open Write (flat)

attribute [ext] ParticipantRecord CandidateRecord EvaluationRecord CommitRecord ExecutionRecord
  EnsembleRecord Counters DurableState

/-! ## Numbers and flags -/

theorem Decoder.wide_exact : Exact wide (fun value => value < 2 ^ 64) Encoder.wide := by
  refine .congr (.convert UInt64.ofNat (fun value => value < 2 ^ 64) u64_exact fun word _ =>
    .known fun value => ?_) fun _ => by rw [true_and]
  constructor
  · rintro ⟨rfl, hlt⟩
    exact (UInt64.toNat_ofNat_of_lt' hlt).symm
  · rintro rfl
    exact ⟨UInt64.ofNat_toNat, word.toNat_lt⟩

theorem Decoder.optional_exact {α : Type} {p : Decoder α} {legal : α → Prop}
    {put : α → List Write} (h : Exact p legal put) :
    Exact (optional p) (fun value => ∀ a ∈ value, legal a) (Encoder.optional put) := by
  intro bytes value rest
  constructor
  · intro hread
    obtain ⟨present, middle, hflag, hrest⟩ := Reader.run_bind_eq_ok.mp hread
    obtain ⟨-, -, rfl⟩ := (boolean_exact _ _ _).mp hflag
    cases present with
    | false =>
      cases hrest
      exact ⟨trivial, fun a ha => (Option.not_mem_none a ha).elim, rfl⟩
    | true =>
      obtain ⟨a, last, ha, hdone⟩ := Reader.run_bind_eq_ok.mp hrest
      cases hdone
      obtain ⟨-, hlegal, rfl⟩ := (h _ _ _).mp ha
      refine ⟨trivial, fun b hb => Option.some.inj hb ▸ hlegal, ?_⟩
      rw [Encoder.optional, Write.flat_append, List.append_assoc]
  · rintro ⟨-, hlegal, rfl⟩
    cases value with
    | none => exact Reader.run_bind_eq_ok.mpr ⟨false, rest, (boolean_exact _ _ _).mpr
        ⟨trivial, trivial, rfl⟩, rfl⟩
    | some a =>
      refine Reader.run_bind_eq_ok.mpr ⟨true, flat (put a) ++ rest, (boolean_exact _ _ _).mpr
        ⟨trivial, trivial, ?_⟩, Reader.run_bind_eq_ok.mpr ⟨a, rest, ?_, rfl⟩⟩
      · rw [Encoder.optional, Write.flat_append, List.append_assoc]
      · exact (h _ _ _).mpr ⟨trivial, hlegal a rfl, rfl⟩

theorem Decoder.optional_readsAs {α : Type} {p : Decoder α} {legal : α → Prop}
    {put : α → List Write} {seen : α → α} (h : ReadsAs p legal put seen) :
    ReadsAs (optional p) (fun value => ∀ a ∈ value, legal a) (Encoder.optional put)
      (Option.map seen) := by
  refine ⟨fun bytes value rest hread => ⟨trivial, ?_⟩, fun value rest _ hlegal => ?_⟩
  · obtain ⟨present, middle, -, hrest⟩ := Reader.run_bind_eq_ok.mp hread
    cases present with
    | false =>
      cases hrest
      rintro a ⟨⟩
    | true =>
      obtain ⟨a, last, ha, hdone⟩ := Reader.run_bind_eq_ok.mp hrest
      cases hdone
      rintro b ⟨⟩
      exact (h.1 _ _ _ ha).2
  · cases value with
    | none => exact Reader.run_bind_eq_ok.mpr ⟨false, rest, (boolean_exact _ _ _).mpr
        ⟨trivial, trivial, rfl⟩, rfl⟩
    | some a =>
      refine Reader.run_bind_eq_ok.mpr ⟨true, flat (put a) ++ rest, (boolean_exact _ _ _).mpr
        ⟨trivial, trivial, ?_⟩, Reader.run_bind_eq_ok.mpr ⟨seen a, rest, ?_, rfl⟩⟩
      · rw [Encoder.optional, Write.flat_append, List.append_assoc]
      · exact h.2 a rest trivial (hlegal a rfl)

open Decoder (wide_exact optional_exact optional_readsAs)

theorem executionStatus_exact (what : String) :
    Exact (getEnum ExecutionStatus.cast what) (fun _ => True)
      fun status => Encoder.u8 status.number :=
  getEnum_exact (fun status => by cases status <;> decide) (fun status => by cases status <;> rfl)
    (by decide) what

/-! ## Records -/

/-- The counters of a record that the source keeps in 32 bits. -/
def ParticipantRecord.counters (p : ParticipantRecord) : List Nat :=
  [p.replacementCount, p.candidatesCompleted, p.candidatesFailed, p.candidatesAbstained,
    p.evaluationsSubmitted, p.retriesConsumed]

def ParticipantRecord.Fits (limits : Limits) (p : ParticipantRecord) : Prop :=
  p.declaration.Fits limits ∧ TextFits limits.maxMetadataBytes p.failureDetail
    ∧ ∀ n ∈ p.counters, n < 2 ^ 32

theorem getParticipantRecord_exact (limits : Limits) :
    Exact (getParticipantRecord limits) (ParticipantRecord.Fits limits) putParticipantRecord := by
  refine .congr (.field getId_exact fun id _ => .field getId_exact fun generation _ =>
      .field (getParticipantSpec_exact limits) fun declaration _ =>
      .field (participantStatus_exact _) fun status _ => .field getId_exact fun worker _ =>
      .field getId_exact fun boot _ => .field getId_exact fun epoch _ =>
      .field decodeProfile_exact fun profile _ => .field boolean_exact fun registered _ =>
      .field (getString_exact _ _) fun detail _ => .field counter_exact fun replacements _ =>
      .field counter_exact fun completed _ => .field counter_exact fun failed _ =>
      .field counter_exact fun abstained _ => .field counter_exact fun evaluations _ =>
      .field counter_exact fun retries _ => .field boolean_exact fun fallback _ =>
      .done fun p => ?_) fun p => ?_
  · simp [ParticipantRecord.ext_iff, and_assoc]
  · simp [ParticipantRecord.Fits, ParticipantRecord.counters]

def CandidateRecord.counters (c : CandidateRecord) : List Nat :=
  [c.attempt, c.attemptsUsed, c.evaluationCount, c.hardFailures, c.hardUnknowns, c.hardPredicates]

def CandidateRecord.texts (c : CandidateRecord) : List String :=
  [c.domain, c.failureDetail, c.eliminationReason]

def CandidateRecord.Fits (limits : Limits) (c : CandidateRecord) : Prop :=
  (∀ n ∈ c.counters, n < 2 ^ 32) ∧ (∀ text ∈ c.texts, TextFits limits.maxMetadataBytes text)
    ∧ c.payload.length ≤ limits.maxCandidatePayloadBytes.toNat

theorem getCandidateRecord_exact (limits : Limits) :
    Exact (getCandidateRecord limits) (CandidateRecord.Fits limits) putCandidateRecord := by
  refine .congr (.field getId_exact fun id _ => .field getId_exact fun generation _ =>
      .field getId_exact fun participant _ => .field getId_exact fun participantGeneration _ =>
      .field (role_exact _) fun role _ => .field getId_exact fun stage _ =>
      .field (candidateState_exact _) fun state _ => .field counter_exact fun attempt _ =>
      .field counter_exact fun attemptsUsed _ => .field (getString_exact _ _) fun domain _ =>
      .field (bytes_exact _) fun payload _ => .field u64_exact fun digest _ =>
      .field getId_exact fun sequence _ => .field getId_exact fun dispatchSequence _ =>
      .field getId_exact fun worker _ => .field getId_exact fun boot _ =>
      .field getId_exact fun epoch _ => .field (failure_exact _) fun failure _ =>
      .field (getString_exact _ _) fun detail _ => .field counter_exact fun evaluations _ =>
      .field counter_exact fun hardFailures _ => .field counter_exact fun hardUnknowns _ =>
      .field counter_exact fun hardPredicates _ => .field u32_exact fun budget _ =>
      .field u32_exact fun latency _ => .field boolean_exact fun fallback _ =>
      .field boolean_exact fun current _ => .field (getString_exact _ _) fun elimination _ =>
      .done fun c => ?_) fun c => ?_
  · -- the dispatch sequence is read before the worker
    simp only [CandidateRecord.ext_iff, true_and]
    tauto
  · simp only [CandidateRecord.Fits, CandidateRecord.counters, CandidateRecord.texts,
      List.forall_mem_cons, List.not_mem_nil, false_implies, implies_true, true_and, and_true]
    tauto

def EvaluationRecord.Fits (limits : Limits) (r : EvaluationRecord) : Prop :=
  r.evidence.length ≤ limits.maxEvaluationPayloadBytes.toNat
    ∧ TextFits limits.maxMetadataBytes r.rationale

theorem getEvaluationRecord_exact (limits : Limits) :
    Exact (getEvaluationRecord limits) (EvaluationRecord.Fits limits) putEvaluationRecord := by
  refine .congr (.field getId_exact fun id _ => .field getId_exact fun generation _ =>
      .field getId_exact fun evaluator _ => .field getId_exact fun evaluatorGeneration _ =>
      .field (role_exact _) fun role _ => .field getId_exact fun candidate _ =>
      .field getId_exact fun candidateGeneration _ => .field getCriterion_exact fun criterion _ =>
      .field (criterionKind_exact _) fun kind _ =>
      .field (verification_exact _) fun verification _ =>
      .field (judgment_exact _) fun judgment _ => .field boolean_exact fun scoreDefined _ =>
      .field f64_exact fun score _ => .field f64_exact fun weight _ =>
      .field (bytes_exact _) fun evidence _ => .field (getString_exact _ _) fun rationale _ =>
      .field getId_exact fun sequence _ => .field getId_exact fun epoch _ =>
      .field getId_exact fun worker _ => .field getId_exact fun boot _ =>
      .field u64_exact fun fingerprint _ => .field boolean_exact fun current _ =>
      .done fun r => ?_) fun r => ?_
  · simp [EvaluationRecord.ext_iff, and_assoc]
  · simp [EvaluationRecord.Fits]

theorem getCommitRecord_exact : Exact getCommitRecord (fun _ => True) putCommitRecord := by
  refine .congr (.field getId_exact fun result _ => .field getId_exact fun generation _ =>
      .field getId_exact fun sequence _ => .field getId_exact fun epoch _ =>
      .field getId_exact fun execution _ => .field getId_exact fun attempt _ =>
      .field (decision_exact _) fun decision _ => .field u64_exact fun fingerprint _ =>
      .done fun record => ?_) fun record => ?_
  · simp [CommitRecord.ext_iff, and_assoc]
  · simp

/-! ## Executions -/

/-- The execution without what is not written. -/
def ExecutionRecord.stored (x : ExecutionRecord) : ExecutionRecord :=
  { x with
    pending := []
    commitAttempts := 0
    quorum := {}
    consensus := {}
    arbitration := {} }

@[mk_iff] structure ExecutionRecord.Fits (limits : Limits) (x : ExecutionRecord) : Prop where
  stageIndex : x.stageIndex ≤ limits.maxStagesPerEnsemble.toNat
  reason : TextFits limits.maxMetadataBytes x.cancellationReason
  result : ∀ r ∈ x.result, r.Fits limits
  candidateCount : x.candidates.length ≤ limits.maxCandidatesPerExecution.toNat
  candidates : ∀ c ∈ x.candidates, c.Fits limits
  evaluationCount : x.evaluations.length ≤ limits.maxEvaluationsPerExecution.toNat
  evaluations : ∀ r ∈ x.evaluations, r.Fits limits
  stageCount : x.extraStages.length ≤ limits.maxStagesPerEnsemble.toNat
  stages : ∀ stage ∈ x.extraStages, stage.Fits limits
  commitCount : x.commits.length ≤ limits.maxRetainedCommits.toNat

theorem getExecutionRecord_readsAs (limits : Limits) :
    ReadsAs (getExecutionRecord limits) (ExecutionRecord.Fits limits) putExecutionRecord
      ExecutionRecord.stored := by
  have hindex : ∀ (index : Nat) (x : ExecutionRecord), x.stageIndex = index →
      (x.stageIndex ≤ limits.maxStagesPerEnsemble.toNat
        ↔ ¬ limits.maxStagesPerEnsemble.toNat < index) := by
    rintro index x rfl
    exact Nat.not_lt.symm
  refine .congr (ReadsAsOn.of_seen (fun x => x.pending = [] ∧ x.commitAttempts = 0
      ∧ x.quorum = {} ∧ x.consensus = {} ∧ x.arbitration = {})
      (.same_field getId_exact (fun _ => rfl) fun id _ =>
      .same_field getId_exact (fun _ => rfl) fun attempt _ =>
      .same_field (executionStatus_exact _) (fun _ => rfl) fun status _ =>
      .same_field getId_exact (fun _ => rfl) fun epoch _ =>
      .same_field u64_exact (fun _ => rfl) fun reports _ =>
      .same_field wide_exact (fun _ => rfl) fun stageIndex _ =>
      .guard (fun x hx => hindex stageIndex x hx.2) (fun _ => Iff.rfl) fun _ =>
      .same_field boolean_exact (fun _ => rfl) fun declared _ =>
      .same_field boolean_exact (fun _ => rfl) fun planning _ =>
      .same_field boolean_exact (fun _ => rfl) fun fallback _ =>
      .same_field u32_exact (fun _ => rfl) fun depth _ =>
      .same_field boolean_exact (fun _ => rfl) fun cancellation _ =>
      .same_field (getString_exact _ _) (fun _ => rfl) fun reason _ =>
      .same_field boolean_exact (fun _ => rfl) fun emitted _ =>
      .same_field getId_exact (fun _ => rfl) fun cancelled _ =>
      .same_field getId_exact (fun _ => rfl) fun committed _ =>
      .same_field (optional_exact (getResult_exact limits)) (fun _ => rfl) fun result _ =>
      .same_field (list_exact (getCandidateRecord_exact limits) _ _) (fun _ => rfl)
        fun candidates _ =>
      .same_field (list_exact (getEvaluationRecord_exact limits) _ _) (fun _ => rfl)
        fun evaluations _ =>
      .same_field (list_exact (getStageSpec_exact limits) _ _) (fun _ => rfl) fun stages _ =>
      .same_field (list_exact getCommitRecord_exact _ _) (fun _ => rfl) fun commits _ =>
      .done fun x => ?_) fun x => ⟨rfl, rfl, rfl, rfl, rfl⟩) fun x => ?_
  · simp only [ExecutionRecord.ext_iff]
    tauto
  · have hwide : x.stageIndex ≤ limits.maxStagesPerEnsemble.toNat → x.stageIndex < 2 ^ 64 := by
      intro hsmall
      have hmax := limits.maxStagesPerEnsemble.toNat_lt
      omega
    simp only [ExecutionRecord.fits_iff, true_and, and_true, implies_true]
    tauto

theorem ExecutionRecord.stored_fits {limits : Limits} {x : ExecutionRecord} :
    x.stored.Fits limits ↔ x.Fits limits := by
  simp [ExecutionRecord.fits_iff, ExecutionRecord.stored]

/-! ## Ensembles -/

/-- The specification is valid, within the bounds of its decoder, and its
encoding is not cut short. -/
structure EnsembleSpec.Storable (limits : Limits) (spec : EnsembleSpec) : Prop where
  fits : spec.Fits limits
  valid : validateSpec spec limits = .ok ()
  size : (flat (putSpec spec)).length ≤ limits.maxPersistenceBytes.toNat

theorem getStoredSpec_exact (limits : Limits) :
    Exact (getStoredSpec limits) (EnsembleSpec.Storable limits) (putStoredSpec limits) := by
  intro bytes spec rest
  rw [getStoredSpec, Reader.run_bind_eq_ok]
  constructor
  · rintro ⟨data, middle, hdata, hspec⟩
    obtain ⟨-, hsize, rfl⟩ := (bytes_exact _ _ _ _).mp hdata
    cases hdecoded : decodeSpec data limits with
    | error e =>
      rw [hdecoded] at hspec
      cases hspec
    | ok read =>
      rw [hdecoded] at hspec
      cases hspec
      obtain ⟨hread, hvalid⟩ := decodeSpec_eq_ok.mp hdecoded
      obtain ⟨hfits, rfl⟩ := (getSpec_exact limits).canonical hread
      refine ⟨trivial, ⟨hfits, hvalid, hsize⟩, ?_⟩
      rw [putStoredSpec, encodeSpec, Encoder.buffer_eq hsize]
  · rintro ⟨-, hstorable, rfl⟩
    have hencoded : encodeSpec spec limits = flat (putSpec spec) :=
      Encoder.buffer_eq hstorable.size
    refine ⟨encodeSpec spec limits, rest, ?_, ?_⟩
    · refine (bytes_exact _ _ _ _).mpr ⟨trivial, ?_, rfl⟩
      rw [hencoded]
      exact hstorable.size
    · rw [hencoded, decodeSpec_eq_ok.mpr
        ⟨(getSpec_exact limits).reads hstorable.fits, hstorable.valid⟩]
      rfl

def EnsembleRecord.stored (e : EnsembleRecord) : EnsembleRecord :=
  { e with execution := e.execution.map ExecutionRecord.stored }

@[mk_iff] structure EnsembleRecord.Fits (limits : Limits) (e : EnsembleRecord) : Prop where
  spec : e.spec.Storable limits
  participantCount : e.participants.length ≤ limits.maxParticipantsPerEnsemble.toNat
  participants : ∀ p ∈ e.participants, p.Fits limits
  execution : ∀ x ∈ e.execution, x.Fits limits
  historyCount : e.history.length ≤ limits.maxRetainedResults.toNat
  history : ∀ r ∈ e.history, r.Fits limits

theorem getEnsembleRecord_readsAs (limits : Limits) :
    ReadsAs (getEnsembleRecord limits) (EnsembleRecord.Fits limits) (putEnsembleRecord limits)
      EnsembleRecord.stored := by
  refine .congr (.same_field (getStoredSpec_exact limits) (fun _ => rfl) fun spec _ =>
      .same_field boolean_exact (fun _ => rfl) fun superseded _ =>
      .same_field (list_exact (getParticipantRecord_exact limits) _ _) (fun _ => rfl)
        fun participants _ =>
      .field (optional_readsAs (getExecutionRecord_readsAs limits)) (fun _ => rfl)
        fun execution _ =>
      .same_field (list_exact (getResult_exact limits) _ _) (fun _ => rfl) fun history _ =>
      .done fun e => ?_) fun e => ?_
  · simp only [EnsembleRecord.ext_iff]
    tauto
  · simp only [EnsembleRecord.fits_iff, true_and, and_true]
    tauto

theorem EnsembleRecord.stored_fits {limits : Limits} {e : EnsembleRecord} :
    e.stored.Fits limits ↔ e.Fits limits := by
  simp [EnsembleRecord.fits_iff, EnsembleRecord.stored, ExecutionRecord.stored_fits]

/-! ## The state -/

def DurableState.stored (state : DurableState) : DurableState :=
  { state with ensembles := state.ensembles.map EnsembleRecord.stored }

/-- The counters that the source keeps in 64 bits. -/
def Counters.all (k : Counters) : List Nat :=
  [k.commitsAccepted, k.commitsRejectedConflicting, k.commitsRejectedStale,
    k.staleSubmissionsRejected, k.duplicateSubmissionsSuppressed, k.duplicateVotesSuppressed,
    k.fallbackActivations, k.cancellations, k.supersessions, k.revalidationsRequired]

/-- The bounds of the decoder on a state and everything in it. Whether a state
comes back from its file depends on them and on the size alone. -/
@[mk_iff] structure DurableState.Fits (limits : Limits) (state : DurableState) : Prop where
  counters : ∀ n ∈ state.counters.all, n < 2 ^ 64
  count : state.ensembles.length ≤ limits.maxRecordsPerSnapshot.toNat
  ensembles : ∀ e ∈ state.ensembles, e.Fits limits

theorem getState_readsAs (limits : Limits) :
    ReadsAs (getState limits) (DurableState.Fits limits) (putState limits)
      DurableState.stored := by
  have hreserved : ∀ (reserved : UInt32) (state : DurableState), True ∧ 0 = reserved →
      (True ↔ ¬ reserved ≠ 0) := by
    rintro reserved state ⟨-, rfl⟩
    decide
  refine .congr (.same_field u32_exact (fun _ => rfl) fun reserved _ =>
      .guard (hreserved reserved) (fun _ => Iff.rfl) fun hzero =>
      .same_field getId_exact (fun _ => rfl) fun epoch _ =>
      .same_field getId_exact (fun _ => rfl) fun boot _ =>
      .same_field u64_exact (fun _ => rfl) fun ensembleMark _ =>
      .same_field u64_exact (fun _ => rfl) fun candidateMark _ =>
      .same_field u64_exact (fun _ => rfl) fun evaluationMark _ =>
      .same_field u64_exact (fun _ => rfl) fun resultMark _ =>
      .same_field u64_exact (fun _ => rfl) fun sequenceMark _ =>
      .same_field wide_exact (fun _ => rfl) fun accepted _ =>
      .same_field wide_exact (fun _ => rfl) fun rejectedConflicting _ =>
      .same_field wide_exact (fun _ => rfl) fun rejectedStale _ =>
      .same_field wide_exact (fun _ => rfl) fun staleSubmissions _ =>
      .same_field wide_exact (fun _ => rfl) fun duplicateSubmissions _ =>
      .same_field wide_exact (fun _ => rfl) fun duplicateVotes _ =>
      .same_field wide_exact (fun _ => rfl) fun fallbackActivations _ =>
      .same_field u64_exact (fun _ => rfl) fun retriesIssued _ =>
      .same_field wide_exact (fun _ => rfl) fun cancellations _ =>
      .same_field wide_exact (fun _ => rfl) fun supersessions _ =>
      .same_field wide_exact (fun _ => rfl) fun revalidations _ =>
      .field (list_readsAs (getEnsembleRecord_readsAs limits) _ _) (fun _ => rfl)
        fun ensembles _ =>
      .done fun state => ?_) fun state => ?_
  · have hzero := (not_not.mp hzero).symm
    simp only [DurableState.ext_iff, Counters.ext_iff, and_assoc, true_and]
    grind
  · simp only [DurableState.fits_iff, Counters.all, List.forall_mem_cons, List.not_mem_nil,
      false_implies, implies_true, true_and, and_true, and_assoc]

theorem DurableState.stored_fits {limits : Limits} {state : DurableState} :
    state.stored.Fits limits ↔ state.Fits limits := by
  simp [DurableState.fits_iff, DurableState.stored, EnsembleRecord.stored_fits]

/-- What is written for a state is read back, without the parts that are not
written, if and only if the state is within the bounds of the decoder. -/
theorem decodeState_eq_ok {limits : Limits} {state : DurableState} :
    decodeState (flat (putState limits state)) limits = .ok state.stored
      ↔ state.Fits limits := by
  rw [← (getState_readsAs limits).reads_iff (fun _ => DurableState.stored_fits)]
  simp only [decodeState, requireExhausted, Checks.bind_eq_ok, require_eq_ok, Checks.pure_eq_ok]
  constructor
  · rintro ⟨⟨read, remaining⟩, hread, _, hempty, rfl⟩
    obtain rfl := List.isEmpty_iff.mp hempty
    exact hread
  · intro hread
    exact ⟨(state.stored, []), hread, (), rfl, rfl⟩

end EnsembleFabric
